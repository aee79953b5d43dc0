import StorageScenario.Body

/-!
Reading a body piece by piece. A reader is a body and a position, which is a word
of 64 bits and may lie behind the end, where nothing is left to read. Seeking fails
without moving when the new position would be negative or too large for the word.
-/

namespace StorageScenario

structure Reader where
  body : Body
  position : UInt64

inductive SeekOrigin where
  | start (offset : UInt64)
  | finish (offset : Int64)
  | current (offset : Int64)

def Body.reader (body : Body) : Reader := ⟨body, 0⟩

namespace Reader

def remaining (size position : UInt64) : UInt64 :=
  if position ≤ size then size - position else 0

/-- The next bytes, at most `count`. Zeros are made on demand. -/
def upcoming (reader : Reader) (count : Nat) : Bytes :=
  match reader.body with
  | .zeros size => List.replicate (min count (remaining size reader.position).toNat) 0
  | .buffered bytes => (bytes.drop reader.position.toNat).take count
  | .declared _ bytes _ _ => (bytes.drop reader.position.toNat).take count

def advance (reader : Reader) (bytes : Bytes) : Reader :=
  { reader with position := reader.position + UInt64.ofNat bytes.length }

/-- One read into a buffer of `count` bytes. A failing body fails once its bytes
are used up, unless nothing was asked for. -/
def read (reader : Reader) (count : Nat) : Except IoError Bytes × Reader :=
  let bytes := reader.upcoming count
  match reader.body.failure? with
  | some cause =>
      if bytes = [] ∧ count ≠ 0 then (.error cause, reader)
      else (.ok bytes, reader.advance bytes)
  | none => (.ok bytes, reader.advance bytes)

def rest (reader : Reader) : Except IoError Bytes × Reader :=
  let bytes := reader.upcoming (reader.body.extent - reader.position.toNat)
  match reader.body.failure? with
  | some cause => (.error cause, reader.advance bytes)
  | none => (.ok bytes, reader.advance bytes)

/-- Reads into buffers of the given lengths, and what they hand over taken into a hash. -/
def hashed (progress : Digest.Progress) : List Nat → Reader → Except IoError Digest.Progress
  | [], _ => .ok progress
  | count :: counts, reader =>
      match reader.read count with
      | (.ok bytes, next) => next.hashed (bytes.foldl Digest.absorb progress) counts
      | (.error cause, _) => .error cause

def digest (reader : Reader) (counts : List Nat) : Except IoError Digest :=
  (reader.hashed Digest.start counts).map Digest.Progress.finish

/-- A base moved by an offset, unless it gets negative or too large. Adding a negative
offset as a word has to carry, and adding another must not. -/
def shifted? (base : UInt64) (offset : Int64) : Option UInt64 :=
  let sum := base + offset.toUInt64
  if sum < base ↔ offset < 0 then some sum else none

def target? (reader : Reader) : SeekOrigin → Option UInt64
  | .start offset => some offset
  | .finish offset => shifted? (UInt64.ofNat reader.body.extent) offset
  | .current offset => shifted? reader.position offset

def seek (reader : Reader) (origin : SeekOrigin) : Except IoError Nat × Reader :=
  match reader.target? origin with
  | some goal => (.ok goal.toNat, { reader with position := goal })
  | none => (.error .invalidSeek, reader)

end Reader

end StorageScenario
