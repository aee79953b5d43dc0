import StorageScenario.Keystream
import StorageScenario.Text

/-!
Sources of fresh names. Whoever runs a scenario may bring one. Two are at hand: one
counts up behind a stem; the other draws version 4 UUIDs from a key stream.
-/

namespace StorageScenario

namespace Uuid

/-- Sixteen bytes with the marks of version 4 set. -/
def stamp (bytes : List UInt8) : List UInt8 :=
  (bytes.modify 6 fun byte => (byte &&& 0x0f) ||| 0x40).modify 8 fun byte =>
    (byte &&& 0x3f) ||| 0x80

def groupSizes : List Nat := [4, 2, 2, 2, 6]

def groups : List Nat → List UInt8 → List String
  | [], _ => []
  | size :: sizes, bytes => Text.hexBytes (bytes.take size) :: groups sizes (bytes.drop size)

def render (bytes : List UInt8) : String :=
  "-".intercalate (groups groupSizes (stamp bytes))

def fits (place : Nat) (letter : Char) : Bool :=
  if place ∈ [8, 13, 18, 23] then letter = '-'
  else if place = 14 then letter = '4'
  else if place = 19 then letter ∈ ['8', '9', 'a', 'b']
  else letter ∈ "0123456789abcdef".toList

def isVersion4 (text : String) : Bool :=
  text.toList.length = 36 && text.toList.zipIdx.all fun entry => fits entry.2 entry.1

end Uuid

/-- Whatever a source works with, it is the sequence of its names, of which so many
have been given out. -/
structure NameSource where
  names : Nat → String
  given : Nat

namespace NameSource

def counting (stem : String) : NameSource :=
  ⟨fun place => stem ++ "-" ++ toString (UInt64.ofNat place), 0⟩

/-- Each block of the key stream makes one name. -/
def random (seed : UInt64) (given : Nat) : NameSource :=
  let key := Keystream.key seed
  ⟨fun place => Uuid.render (Keystream.blockBytes key place), given⟩

def next (source : NameSource) : String × NameSource :=
  (source.names source.given, { source with given := source.given + 1 })

def take : Nat → NameSource → List String
  | 0, _ => []
  | count + 1, source => source.next.1 :: take count source.next.2

end NameSource

end StorageScenario
