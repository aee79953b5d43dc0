import StorageScenario.ByteSize
import StorageScenario.Digest
import StorageScenario.IoError
import StorageScenario.Keystream
import StorageScenario.Text

/-!
Bodies of objects. A body is held as bytes, stands for a number of zeros that
nobody needs to hold, or declares a size and yields whatever bytes it has until
it ends or fails. One that declares its size may also bring its digest.
-/

namespace StorageScenario

abbrev Bytes := List UInt8

inductive Body where
  | buffered (bytes : Bytes)
  | zeros (size : UInt64)
  | declared (size : UInt64) (bytes : Bytes) (failure : Option String)
      (ownDigest : Option Digest := none)

namespace Body

def ofText (text : String) : Body := .buffered text.toUTF8.toList

def seeded (size : Nat) (seed : UInt64) : Body :=
  .buffered ((Keystream.Generator.ofSeed seed).draw size).1

def size : Body → Nat
  | .buffered bytes => bytes.length
  | .zeros size => size.toNat
  | .declared size _ _ _ => size.toNat

/-- The bytes that come before the end or the failure. -/
def yielded : Body → Bytes
  | .buffered bytes => bytes
  | .zeros size => List.replicate size.toNat 0
  | .declared _ bytes _ _ => bytes

def extent : Body → Nat
  | .buffered bytes => bytes.length
  | .zeros size => size.toNat
  | .declared _ bytes _ _ => bytes.length

def failure? : Body → Option IoError
  | .declared _ _ (some message) _ => some (.unreadableBody message)
  | _ => none

def contents (body : Body) : Except IoError Bytes :=
  match body.failure? with
  | none => .ok body.yielded
  | some cause => .error cause

def ownDigest? : Body → Option Digest
  | .declared _ _ _ ownDigest => ownDigest
  | _ => none

/-- A body with a digest of its own is not read for it. -/
def digest (body : Body) : Except IoError Digest :=
  match body.ownDigest? with
  | some own => .ok own
  | none => body.contents.map Digest.ofBytes

/-- A body without a digest does not even agree with itself. -/
def agrees (first second : Body) : Bool :=
  first.size == second.size &&
    match first.digest, second.digest with
    | .ok left, .ok right => left == right
    | _, _ => false

/-- A body that is held or stands for zeros shows its size for people to read; a
declared one shows what reading it gives. -/
def describe : Body → String
  | .buffered bytes =>
      Text.record "BufferedContent" [("size", Text.quote (ByteSize.render bytes.length))]
  | .zeros size =>
      Text.record "ZeroContent" [("size", Text.quote (ByteSize.render size.toNat))]
  | .declared size bytes failure _ =>
      Text.record "CustomContent"
        [("size", toString size.toNat),
          ("data", "[" ++ Text.commaSeparated (bytes.map fun byte => toString byte.toNat) ++ "]"),
          ("failure", Text.optional (failure.map Text.quote))]

theorem yielded_length (body : Body) : body.yielded.length = body.extent := by
  cases body <;> simp [yielded, extent]

end Body

end StorageScenario
