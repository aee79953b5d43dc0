import Mathlib.Algebra.Order.Ring.Nat
import StorageScenario.Body.Reader

/-!
Readers beside cursors. A cursor stands at any place of bytes that are held, and its
arithmetic is that of the whole numbers. A reader counts in words, and answers every list
of calls as a cursor over the bytes of its body does. So zeros that nobody holds are read
like zeros that are held, in pieces of any lengths, and no position leaves its word.
-/

namespace StorageScenario

structure Cursor where
  bytes : Bytes
  position : Nat

namespace Cursor

def read (cursor : Cursor) (count : Nat) : Bytes × Cursor :=
  let piece := (cursor.bytes.drop cursor.position).take count
  (piece, { cursor with position := cursor.position + piece.length })

/-- The place that a seek asks for, which need not be a position. -/
def goal (cursor : Cursor) : SeekOrigin → Int
  | .start offset => offset.toNat
  | .finish offset => cursor.bytes.length + offset.toInt
  | .current offset => cursor.position + offset.toInt

def seek (cursor : Cursor) (origin : SeekOrigin) : Except IoError Nat × Cursor :=
  if 0 ≤ cursor.goal origin ∧ cursor.goal origin < ByteSize.limit then
    (.ok (cursor.goal origin).toNat, { cursor with position := (cursor.goal origin).toNat })
  else (.error .invalidSeek, cursor)

end Cursor

inductive ReaderCall where
  | read (count : Nat)
  | seek (origin : SeekOrigin)

inductive ReaderAnswer where
  | bytes (result : Except IoError Bytes)
  | position (result : Except IoError Nat)

def Reader.answer (reader : Reader) : ReaderCall → ReaderAnswer × Reader
  | .read count => ((.bytes (reader.read count).1), (reader.read count).2)
  | .seek origin => ((.position (reader.seek origin).1), (reader.seek origin).2)

def Cursor.answer (cursor : Cursor) : ReaderCall → ReaderAnswer × Cursor
  | .read count => (.bytes (.ok (cursor.read count).1), (cursor.read count).2)
  | .seek origin => (.position (cursor.seek origin).1, (cursor.seek origin).2)

def Reader.transcript : Reader → List ReaderCall → List (ReaderAnswer × Nat)
  | _, [] => []
  | reader, call :: calls =>
      ((reader.answer call).1, (reader.answer call).2.position.toNat) ::
        (reader.answer call).2.transcript calls

def Cursor.transcript : Cursor → List ReaderCall → List (ReaderAnswer × Nat)
  | _, [] => []
  | cursor, call :: calls =>
      ((cursor.answer call).1, (cursor.answer call).2.position) ::
        (cursor.answer call).2.transcript calls

def Reader.after (reader : Reader) (calls : List ReaderCall) : Reader :=
  calls.foldl (fun current call => (current.answer call).2) reader

def Reader.pieces : Reader → List Nat → List (Except IoError Bytes)
  | _, [] => []
  | reader, count :: counts => (reader.read count).1 :: (reader.read count).2.pieces counts

namespace Reader

theorem offset_word (offset : Int64) :
    (offset.toUInt64.toNat : Int) =
      if offset.toInt < 0 then offset.toInt + ByteSize.limit else offset.toInt := by
  have word : offset.toUInt64.toNat = offset.toBitVec.toNat := rfl
  have bound := offset.toBitVec.isLt
  rw [word, ← Int64.toInt_toBitVec, BitVec.toInt_eq_toNat_cond, ByteSize.limit]
  split <;> split <;> omega

/-- A shift is there just if the sum of the whole numbers is a position, and is that sum. -/
theorem shifted_eq_some_iff (base goal : UInt64) (offset : Int64) :
    shifted? base offset = some goal ↔ (goal.toNat : Int) = base.toNat + offset.toInt := by
  have word := offset_word offset
  have sum := UInt64.toNat_add base offset.toUInt64
  have baseBound := base.toNat_lt
  have goalBound := goal.toNat_lt
  have least := offset.le_toInt
  have greatest := offset.toInt_lt
  have same : base + offset.toUInt64 = goal ↔ (base + offset.toUInt64).toNat = goal.toNat :=
    UInt64.toNat_inj.symm
  simp only [shifted?, UInt64.lt_iff_toNat_lt, Int64.lt_iff_toInt_lt, Option.ite_none_right_eq_some,
    Option.some.injEq, same, sum, ByteSize.limit] at word ⊢
  have zero : (0 : Int64).toInt = 0 := rfl
  rw [zero]
  split at word <;> omega

theorem remaining_value (size position : UInt64) :
    (remaining size position).toNat = size.toNat - position.toNat := by
  unfold remaining
  split
  · rename_i inside
    exact UInt64.toNat_sub_of_le size position inside
  · rename_i behind
    have past : size.toNat ≤ position.toNat := by
      rw [UInt64.le_iff_toNat_le] at behind
      omega
    rw [Nat.sub_eq_zero_of_le past]
    rfl

theorem upcoming_eq (reader : Reader) (count : Nat) :
    reader.upcoming count = (reader.body.yielded.drop reader.position.toNat).take count := by
  unfold upcoming Body.yielded
  cases reader.body with
  | buffered bytes => rfl
  | declared size bytes failure => rfl
  | zeros size => simp only [List.drop_replicate, List.take_replicate, remaining_value]

/-- A reader and a cursor at one place of the same bytes. The words of the reader are wide
enough for those. -/
structure Follows (reader : Reader) (cursor : Cursor) : Prop where
  bytes : reader.body.yielded = cursor.bytes
  readable : reader.body.failure? = none
  fits : cursor.bytes.length < ByteSize.limit
  position : reader.position.toNat = cursor.position

section Following

variable {reader : Reader} {cursor : Cursor}

theorem position_behind_piece (follows : reader.Follows cursor) (count : Nat) :
    cursor.position + (cursor.read count).1.length < ByteSize.limit := by
  have fits := follows.fits
  have bound := reader.position.toNat_lt
  rw [follows.position] at bound
  simp only [Cursor.read, List.length_take, List.length_drop, ByteSize.limit] at fits ⊢
  omega

theorem upcoming_follows (follows : reader.Follows cursor) (count : Nat) :
    reader.upcoming count = (cursor.read count).1 := by
  rw [upcoming_eq, follows.bytes, follows.position]
  rfl

theorem read_follows (follows : reader.Follows cursor) (count : Nat) :
    (reader.read count).1 = .ok (cursor.read count).1 ∧
      (reader.read count).2.Follows (cursor.read count).2 := by
  have same := upcoming_follows follows count
  have ran : reader.read count =
      (.ok (cursor.read count).1, reader.advance (cursor.read count).1) := by
    unfold read
    rw [follows.readable, same]
  have short := position_behind_piece follows count
  rw [ran]
  refine ⟨rfl, follows.bytes, follows.readable, follows.fits, ?_⟩
  change (reader.position + UInt64.ofNat (cursor.read count).1.length).toNat =
    cursor.position + (cursor.read count).1.length
  rw [UInt64.toNat_add, UInt64.toNat_ofNat', follows.position]
  rw [ByteSize.limit] at short
  omega

theorem target_iff (follows : reader.Follows cursor) (origin : SeekOrigin) (goal : UInt64) :
    reader.target? origin = some goal ↔ (goal.toNat : Int) = cursor.goal origin := by
  cases origin with
  | start offset =>
      rw [target?, Cursor.goal, Option.some.injEq, Int.natCast_inj, UInt64.toNat_inj]
      exact eq_comm
  | finish offset =>
      have extent : (UInt64.ofNat reader.body.extent).toNat = cursor.bytes.length := by
        rw [← reader.body.yielded_length, follows.bytes, UInt64.toNat_ofNat']
        exact Nat.mod_eq_of_lt follows.fits
      rw [target?, shifted_eq_some_iff, extent]
      rfl
  | current offset =>
      rw [target?, shifted_eq_some_iff, follows.position]
      rfl

theorem seek_follows (follows : reader.Follows cursor) (origin : SeekOrigin) :
    (reader.seek origin).1 = (cursor.seek origin).1 ∧
      (reader.seek origin).2.Follows (cursor.seek origin).2 := by
  have target := target_iff follows origin
  unfold seek Cursor.seek
  cases found : reader.target? origin with
  | some goal =>
      have isGoal := (target goal).mp found
      have inRange : 0 ≤ cursor.goal origin ∧ cursor.goal origin < ByteSize.limit := by
        have bound := goal.toNat_lt
        rw [ByteSize.limit]
        omega
      have value : goal.toNat = (cursor.goal origin).toNat := by omega
      rw [if_pos inRange, ← value]
      exact ⟨rfl, follows.bytes, follows.readable, follows.fits, rfl⟩
  | none =>
      have outside : ¬ (0 ≤ cursor.goal origin ∧ cursor.goal origin < ByteSize.limit) := by
        rintro ⟨low, high⟩
        have word : ((UInt64.ofNat (cursor.goal origin).toNat).toNat : Int) =
            cursor.goal origin := by
          rw [ByteSize.limit] at high
          rw [UInt64.toNat_ofNat']
          omega
        rw [(target _).mpr word] at found
        cases found
      rw [if_neg outside]
      exact ⟨rfl, follows⟩

theorem answer_follows (follows : reader.Follows cursor) (call : ReaderCall) :
    (reader.answer call).1 = (cursor.answer call).1 ∧
      (reader.answer call).2.Follows (cursor.answer call).2 := by
  cases call with
  | read count =>
      obtain ⟨same, next⟩ := read_follows follows count
      exact ⟨congrArg ReaderAnswer.bytes same, next⟩
  | seek origin =>
      obtain ⟨same, next⟩ := seek_follows follows origin
      exact ⟨congrArg ReaderAnswer.position same, next⟩

theorem transcript_follows (follows : reader.Follows cursor) (calls : List ReaderCall) :
    reader.transcript calls = cursor.transcript calls := by
  induction calls generalizing reader cursor with
  | nil => rfl
  | cons call calls ih =>
      obtain ⟨same, next⟩ := answer_follows follows call
      rw [Reader.transcript, Cursor.transcript, same, next.position, ih next]

theorem after_follows (follows : reader.Follows cursor) (calls : List ReaderCall) :
    ∃ reached, (reader.after calls).Follows reached := by
  induction calls generalizing reader cursor with
  | nil => exact ⟨cursor, follows⟩
  | cons call calls ih =>
      obtain ⟨_, next⟩ := answer_follows follows call
      exact ih next

theorem pieces_follow (follows : reader.Follows cursor) (counts : List Nat) :
    ∃ pieces : List Bytes, reader.pieces counts = pieces.map .ok ∧
      pieces.flatten = (cursor.bytes.drop cursor.position).take counts.sum := by
  induction counts generalizing reader cursor with
  | nil => exact ⟨[], rfl, rfl⟩
  | cons count counts ih =>
      obtain ⟨same, next⟩ := read_follows follows count
      obtain ⟨pieces, areRead, joined⟩ := ih next
      refine ⟨(cursor.read count).1 :: pieces, ?_, ?_⟩
      · rw [Reader.pieces, same, areRead]
        rfl
      · let tail := cursor.bytes.drop cursor.position
        have left : (cursor.read count).2.bytes.drop (cursor.read count).2.position =
            tail.drop count := by
          change cursor.bytes.drop (cursor.position + (tail.take count).length) = _
          rw [← List.drop_drop, List.length_take]
          rcases Nat.le_total count tail.length with inside | past
          · rw [Nat.min_eq_left inside]
          · rw [Nat.min_eq_right past, List.drop_length, List.drop_eq_nil_of_le past]
        rw [List.flatten_cons, joined, List.sum_cons, left, List.take_add]
        rfl

end Following

theorem hashed_of_pieces {reader : Reader} {counts : List Nat} {pieces : List Bytes}
    (areRead : reader.pieces counts = pieces.map .ok) (progress : Digest.Progress) :
    reader.hashed progress counts = .ok (pieces.flatten.foldl Digest.absorb progress) := by
  induction counts generalizing reader pieces progress with
  | nil =>
      cases pieces with
      | nil => rfl
      | cons piece pieces => cases areRead
  | cons count counts ih =>
      cases pieces with
      | nil => cases areRead
      | cons piece pieces =>
          obtain ⟨first, later⟩ := List.cons.inj areRead
          have split : reader.read count = (.ok piece, (reader.read count).2) :=
            Prod.ext first rfl
          rw [hashed, split]
          rw [List.flatten_cons, List.foldl_append]
          exact ih later _

end Reader

theorem Body.reader_follows {body : Body} (readable : body.failure? = none)
    (fits : body.yielded.length < ByteSize.limit) :
    body.reader.Follows ⟨body.yielded, 0⟩ :=
  ⟨rfl, readable, fits, rfl⟩

/-- Zeros on demand are read like zeros that are held: the answers to all calls and the
positions are those of a cursor over as many zero bytes, the words of the reader never
overflow, and reads into buffers of any lengths come to the same bytes and, where they reach
the end, to the digest of the body. -/
theorem zeros_read_like_bytes (size : UInt64) :
    let zeros : Body := .zeros size
    let held : Bytes := List.replicate size.toNat 0
    (∀ calls, zeros.reader.transcript calls = (Cursor.mk held 0).transcript calls ∧
      zeros.reader.transcript calls = (Body.buffered held).reader.transcript calls) ∧
    (∀ calls count,
      (zeros.reader.after calls).position.toNat +
        ((zeros.reader.after calls).upcoming count).length < ByteSize.limit) ∧
    (∀ counts, ∃ pieces : List Bytes, zeros.reader.pieces counts = pieces.map .ok ∧
      pieces.flatten = List.replicate (min counts.sum size.toNat) 0) ∧
    ∀ counts, size.toNat ≤ counts.sum →
      zeros.reader.digest counts = zeros.digest ∧ zeros.digest = .ok (Digest.ofBytes held) := by
  intro zeros held
  have bound : held.length < ByteSize.limit := by
    rw [List.length_replicate]
    exact size.toNat_lt
  have follows : zeros.reader.Follows ⟨held, 0⟩ := Body.reader_follows rfl bound
  have heldFollows : (Body.buffered held).reader.Follows ⟨held, 0⟩ :=
    Body.reader_follows rfl bound
  have inPieces : ∀ counts, ∃ pieces : List Bytes,
      zeros.reader.pieces counts = pieces.map .ok ∧
      pieces.flatten = List.replicate (min counts.sum size.toNat) 0 := by
    intro counts
    obtain ⟨pieces, areRead, joined⟩ := Reader.pieces_follow follows counts
    refine ⟨pieces, areRead, ?_⟩
    rw [joined, List.drop_zero, List.take_replicate]
  refine ⟨?_, ?_, inPieces, ?_⟩
  · intro calls
    have same := Reader.transcript_follows follows calls
    exact ⟨same, same.trans (Reader.transcript_follows heldFollows calls).symm⟩
  · intro calls count
    obtain ⟨reached, there⟩ := Reader.after_follows follows calls
    rw [Reader.upcoming_follows there, there.position]
    exact Reader.position_behind_piece there count
  · intro counts toEnd
    obtain ⟨pieces, areRead, joined⟩ := inPieces counts
    rw [Nat.min_eq_right toEnd] at joined
    rw [Reader.digest, Reader.hashed_of_pieces areRead, joined]
    exact ⟨rfl, rfl⟩

/-- The last buffer is longer than what is left, and one in between is empty. -/
theorem zeros_read_like_bytes_in_chunks :
    let zeros : Body := .zeros 3000
    let counts := [1024, 0, 1024, 4096]
    (3000 : UInt64).toNat ≤ counts.sum ∧ zeros.reader.digest counts = zeros.digest := by
  intro zeros counts
  have toEnd : (3000 : UInt64).toNat ≤ counts.sum := by decide
  exact ⟨toEnd, ((zeros_read_like_bytes 3000).2.2.2 counts toEnd).1⟩

end StorageScenario
