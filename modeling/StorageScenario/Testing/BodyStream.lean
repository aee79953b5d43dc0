import StorageScenario.Body

/-!
Bodies cut one after the other from the bytes of one seed, so that a test gets
different bodies every time and the same ones in every run.
-/

namespace StorageScenario

structure BodyStream where
  generator : Keystream.Generator

namespace BodyStream

def ofSeed (seed : UInt64) : BodyStream := ⟨.ofSeed seed⟩

/-- The next `size` bytes. The generator stays where they end. -/
def next (stream : BodyStream) (size : Nat) : Bytes × BodyStream :=
  let (bytes, generator) := stream.generator.draw size
  (bytes, ⟨generator⟩)

def nextSized (stream : BodyStream) (size : String) : Except String (Bytes × BodyStream) :=
  match ByteSize.parse size with
  | .ok count => .ok (stream.next count)
  | .error error =>
      .error ("invalid content size " ++ Text.quote size ++ ": " ++ error.message)

end BodyStream

end StorageScenario
