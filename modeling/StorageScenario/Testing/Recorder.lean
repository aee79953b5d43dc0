import StorageScenario.Traversal
import StorageScenario.Testing.Preparation

/-!
Callbacks that write down what they are called with, so that a test can see the
order of a traversal. A watch may skip the children of some resources, and may
insist on the shape of the definition at one of them.
-/

namespace StorageScenario

/-- One call of a watch. -/
structure Visit where
  tag : String
  scenario : String
  resource : Resource
  definition : Definition

structure Watch where
  level : Level
  tag : String
  skipped : List String
  expected : Option (String × Level)

namespace Watch

def expectedAt? (watch : Watch) (resource : String) : Option Level :=
  match watch.expected with
  | some (name, level) => if name = resource then some level else none
  | none => none

def callback (watch : Watch) : Callback (Session × List Visit) := fun resource definition => do
  let name := resource.canonicalName
  modify fun (session, visits) =>
    (session, visits ++ [⟨watch.tag, session.context.scenario, resource, definition⟩])
  match watch.expectedAt? name with
  | some level => Work.check (definition.checkShape level)
  | none => pure ()
  return if name ∈ watch.skipped then .skipChildren else .descend

/-- The last watch of a level is the one that is called. -/
def callbacks (watches : List Watch) : Callbacks (Session × List Visit) :=
  watches.foldl (fun callbacks watch => callbacks.on watch.level watch.callback) Callbacks.none

end Watch

def Step.visits (watches : List Watch) (resource : Resource) (definition : Definition) :
    Step (Except ScenarioError Unit × List Visit) := fun bench =>
  match definition.traverse (Watch.callbacks watches) resource (bench.session, []) with
  | .ok _ (session, visits) => .ok (.ok (), visits) { bench with session := session }
  | .error error (session, visits) => .ok (.error error, visits) { bench with session := session }

end StorageScenario
