import Mathlib.Algebra.Order.Ring.Nat
import StorageScenario.Testing.BodyStream

/-!
Bodies drawn one after the other as slices of one stream. The stream gives each byte from the
seed and its place alone. A generator that is used again and again stands at a place of it,
with the rest of a block at hand, and every word that is taken moves it on by one place.
-/

namespace StorageScenario

namespace Keystream

def wordAt (key : Vector UInt32 8) (place : Nat) : UInt32 :=
  (mix (setup key (UInt64.ofNat (place / 16)))).get ⟨place % 16, Nat.mod_lt place (by decide)⟩

def byteAt (seed : UInt64) (place : Nat) : UInt8 := (wordAt (key seed) place).toUInt8

def slice (seed : UInt64) (offset count : Nat) : List UInt8 :=
  (List.range' offset count).map (byteAt seed)

theorem slice_append (seed : UInt64) (offset first second : Nat) :
    slice seed offset first ++ slice seed (offset + first) second =
      slice seed offset (first + second) := by
  unfold slice
  rw [← List.map_append, List.range'_append_1]

theorem block_words (key : Vector UInt32 8) (block : Nat) :
    (mix (setup key (UInt64.ofNat block))).toList =
      (List.range' (16 * block) 16).map (wordAt key) := by
  apply List.ext_getElem
  · simp
  · intro index inBlock inRange
    have small : index < 16 := by simpa using inBlock
    have place : (16 * block + index) / 16 = block := by omega
    have within : (16 * block + index) % 16 = index := by omega
    simp [wordAt, place, within, Vector.get]

namespace Generator

/-- The words at hand are those from the place on, up to the block that is made next. -/
structure StandsAt (generator : Generator) (key : Vector UInt32 8) (place : Nat) : Prop where
  sameKey : generator.key = key
  words : generator.words = (List.range' place generator.words.length).map (wordAt key)
  next : ∃ block, generator.counter = UInt64.ofNat block ∧
    place + generator.words.length = 16 * block

theorem of_seed_stands (seed : UInt64) : (ofSeed seed).StandsAt (Keystream.key seed) 0 :=
  ⟨rfl, rfl, 0, rfl, rfl⟩

/-- A word that is taken is the one of the place, whether it was at hand or begins a block. -/
theorem next_word_stands {generator : Generator} {key : Vector UInt32 8} {place : Nat}
    (stands : generator.StandsAt key place) :
    generator.nextWord.1 = wordAt key place ∧
      generator.nextWord.2.StandsAt key (place + 1) := by
  obtain ⟨isKey, areWords, block, isCounter, aligned⟩ := stands
  cases atHand : generator.words with
  | cons word words =>
      rw [atHand, List.length_cons, List.range'_succ, List.map_cons] at areWords
      rw [atHand, List.length_cons] at aligned
      obtain ⟨isWord, areLater⟩ := List.cons.inj areWords
      have taken : generator.nextWord = (word, { generator with words := words }) := by
        unfold nextWord
        rw [atHand]
      rw [taken]
      refine ⟨isWord, isKey, areLater, block, isCounter, ?_⟩
      change place + 1 + words.length = 16 * block
      omega
  | nil =>
      rw [atHand, List.length_nil, Nat.add_zero] at aligned
      have made := block_words key block
      have taken : generator.nextWord =
          ((mix (setup key (UInt64.ofNat block)))[0],
            ⟨key, UInt64.ofNat block + 1,
              (mix (setup key (UInt64.ofNat block))).toList.tail⟩) := by
        unfold nextWord
        rw [atHand, ← isKey, ← isCounter]
      rw [taken]
      generalize mix (setup key (UInt64.ofNat block)) = words at made
      have split : words.toList =
          wordAt key (16 * block) :: (List.range' (16 * block + 1) 15).map (wordAt key) :=
        made.trans (by rw [List.range'_succ, List.map_cons])
      have isFirst : words[0] = wordAt key (16 * block) := by
        have first : words.toList[0]? = some (wordAt key (16 * block)) := by
          rw [split]
          rfl
        simpa using first
      rw [aligned]
      refine ⟨isFirst, rfl, ?_, block + 1, ?_, ?_⟩
      · simp only [split, List.tail_cons, List.length_map, List.length_range']
      · exact (UInt64.ofNat_add block 1).symm
      · simp only [split, List.tail_cons, List.length_map, List.length_range']
        omega

theorem draw_onto_stands {generator : Generator} {key : Vector UInt32 8} {place : Nat}
    (stands : generator.StandsAt key place) (drawn : Array UInt8) (count : Nat) :
    (generator.drawOnto drawn count).1.toList =
        drawn.toList ++ (List.range' place count).map (fun each => (wordAt key each).toUInt8) ∧
      (generator.drawOnto drawn count).2.StandsAt key (place + count) := by
  induction count generalizing generator place drawn with
  | zero => exact ⟨(List.append_nil _).symm, stands⟩
  | succ count ih =>
      obtain ⟨isWord, next⟩ := next_word_stands stands
      obtain ⟨bytes, reached⟩ := ih next (drawn.push generator.nextWord.1.toUInt8)
      rw [Nat.add_assoc, Nat.add_comm 1 count] at reached
      refine ⟨?_, reached⟩
      change (generator.nextWord.2.drawOnto (drawn.push generator.nextWord.1.toUInt8)
        count).1.toList = _
      rw [bytes, isWord, Array.toList_push, List.append_assoc, List.range'_succ, List.map_cons]
      rfl

theorem draw_stands {generator : Generator} {seed : UInt64} {place : Nat}
    (stands : generator.StandsAt (Keystream.key seed) place) (count : Nat) :
    (generator.draw count).1 = slice seed place count ∧
      (generator.draw count).2.StandsAt (Keystream.key seed) (place + count) :=
  draw_onto_stands stands #[] count

end Generator

end Keystream

inductive SizeRequest where
  | number (size : Nat)
  | written (size : String)

/-- The size that a request is for. A text has to be one that is read as a size. -/
inductive SizeRequest.Asks : SizeRequest → Nat → Prop where
  | number {size : Nat} : Asks (.number size) size
  | written {text : String} {size : Nat} (isSize : ByteSize.parse text = .ok size) :
      Asks (.written text) size

namespace BodyStream

def serve (stream : BodyStream) : SizeRequest → Except String (Bytes × BodyStream)
  | .number size => .ok (stream.next size)
  | .written size => stream.nextSized size

def serveAll (stream : BodyStream) : List SizeRequest → Except String (List Bytes)
  | [] => .ok []
  | request :: requests => do
      let (body, later) ← stream.serve request
      return body :: (← later.serveAll requests)

theorem serve_asked {stream : BodyStream} {request : SizeRequest} {size : Nat}
    (asks : request.Asks size) : stream.serve request = .ok (stream.next size) := by
  cases asks with
  | number => rfl
  | written isSize =>
      rw [serve, nextSized, isSize]

def consecutive (seed : UInt64) : Nat → List Nat → List Bytes
  | _, [] => []
  | offset, size :: sizes =>
      Keystream.slice seed offset size :: consecutive seed (offset + size) sizes

theorem serve_all_consecutive {stream : BodyStream} {seed : UInt64} {offset : Nat}
    (stands : stream.generator.StandsAt (Keystream.key seed) offset)
    {requests : List SizeRequest} {sizes : List Nat}
    (asked : List.Forall₂ SizeRequest.Asks requests sizes) :
    stream.serveAll requests = .ok (consecutive seed offset sizes) := by
  induction asked generalizing stream offset with
  | nil => rfl
  | @cons request size requests sizes asks _ ih =>
      obtain ⟨bytes, reached⟩ := Keystream.Generator.draw_stands stands size
      rw [serveAll, serve_asked asks]
      have later := @ih (stream.next size).2 (offset + size) reached
      have body : (stream.next size).1 = Keystream.slice seed offset size := bytes
      change (do
        let rest ← (stream.next size).2.serveAll requests
        return (stream.next size).1 :: rest) = _
      rw [later, body]
      rfl

theorem consecutive_length (seed : UInt64) (offset : Nat) (sizes : List Nat) :
    (consecutive seed offset sizes).length = sizes.length := by
  induction sizes generalizing offset with
  | nil => rfl
  | cons size sizes ih => rw [consecutive, List.length_cons, ih, List.length_cons]

theorem consecutive_flatten (seed : UInt64) (offset : Nat) (sizes : List Nat) :
    (consecutive seed offset sizes).flatten = Keystream.slice seed offset sizes.sum := by
  induction sizes generalizing offset with
  | nil => rfl
  | cons size sizes ih =>
      rw [consecutive, List.flatten_cons, ih, Keystream.slice_append, List.sum_cons]

theorem consecutive_at (seed : UInt64) (offset : Nat) (before : List Nat) (size : Nat)
    (behind : List Nat) :
    (consecutive seed offset (before ++ size :: behind))[before.length]? =
      some (Keystream.slice seed (offset + before.sum) size) := by
  induction before generalizing offset with
  | nil => rfl
  | cons first before ih =>
      rw [List.cons_append, consecutive, List.length_cons, List.getElem?_cons_succ, ih,
        List.sum_cons, Nat.add_assoc]

/-- Bodies that are asked for one after the other are slices of one stream: each depends on
the seed, on what was asked for before it in all and on its own size, and together they are
the body of all their bytes from the same seed. -/
theorem bodies_are_slices (seed : UInt64) (requests : List SizeRequest) (sizes : List Nat)
    (asked : List.Forall₂ SizeRequest.Asks requests sizes) :
    ∃ bodies, (ofSeed seed).serveAll requests = .ok bodies ∧
      Body.buffered bodies.flatten = Body.seeded sizes.sum seed ∧
      bodies.length = sizes.length ∧
      ∀ before size behind, sizes = before ++ size :: behind →
        bodies[before.length]? = some (Keystream.slice seed before.sum size) := by
  have stands := Keystream.Generator.of_seed_stands seed
  refine ⟨consecutive seed 0 sizes, serve_all_consecutive stands asked, ?_,
    consecutive_length seed 0 sizes, ?_⟩
  · have whole := (Keystream.Generator.draw_stands stands sizes.sum).1
    rw [consecutive_flatten, Body.seeded, whole]
  · intro before size behind isSizes
    rw [isSizes, consecutive_at, Nat.zero_add]

/-- Sizes in both forms. The first body ends one byte before its block does, the second is
empty, and the third goes on from there. -/
theorem bodies_are_slices_across_blocks :
    let requests : List SizeRequest := [.number 15, .written "0 B", .written "1kib", .number 3]
    let sizes := [15, 0, 1024, 3]
    List.Forall₂ SizeRequest.Asks requests sizes ∧
      ∃ bodies, (ofSeed 77).serveAll requests = .ok bodies ∧
        Body.buffered bodies.flatten = Body.seeded 1042 77 ∧
        bodies[2]? = some (Keystream.slice 77 15 1024) := by
  intro requests sizes
  have asked : List.Forall₂ SizeRequest.Asks requests sizes :=
    .cons .number (.cons (.written (by decide)) (.cons (.written (by decide))
      (.cons .number .nil)))
  obtain ⟨bodies, served, joined, _, slices⟩ := bodies_are_slices 77 requests sizes asked
  exact ⟨asked, bodies, served, joined, slices [15, 0] 1024 [3] rfl⟩

end BodyStream

end StorageScenario
