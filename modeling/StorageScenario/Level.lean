/-!
The three levels of the storage hierarchy. A service holds containers, a
container holds objects, and levels are ordered from the shallowest to the
deepest.
-/

namespace StorageScenario

inductive Level where
  | service
  | container
  | object
  deriving DecidableEq

namespace Level

def depth : Level → Nat
  | .service => 0
  | .container => 1
  | .object => 2

instance : LT Level := ⟨fun first second => first.depth < second.depth⟩

instance : LE Level := ⟨fun first second => first.depth ≤ second.depth⟩

instance (first second : Level) : Decidable (first < second) :=
  inferInstanceAs (Decidable (first.depth < second.depth))

instance (first second : Level) : Decidable (first ≤ second) :=
  inferInstanceAs (Decidable (first.depth ≤ second.depth))

instance : Ord Level := ⟨fun first second => compare first.depth second.depth⟩

def name : Level → String
  | .service => "service"
  | .container => "container"
  | .object => "object"

def tag : Level → String
  | .service => "Service"
  | .container => "Container"
  | .object => "Object"

def parent? : Level → Option Level
  | .service => none
  | .container => some .service
  | .object => some .container

def child? : Level → Option Level
  | .service => some .container
  | .container => some .object
  | .object => none

def all : List Level := [.service, .container, .object]

def sorted (levels : List Level) : List Level :=
  levels.mergeSort fun first second => decide (first ≤ second)

theorem depth_injective {first second : Level} (same : first.depth = second.depth) :
    first = second := by
  cases first <;> cases second <;> simp_all [depth]

end Level

end StorageScenario
