import StorageScenario.Cleanup
import StorageScenario.Traversal

/-!
Creating what a definition describes. A definition below the level of the base
is wrapped until it stands at that level, everything on the way is created with
it, and the way is gone down again to find the resource that was asked for.
Containers that were there before are used and not tracked.
-/

namespace StorageScenario

namespace Definition

/-- One level up. A definition keeps its name or gets a fresh one. -/
def lift (definition : Definition) : Work Definition :=
  match definition.level.parent? with
  | none => throw (.noAdoptiveParent definition.level)
  | some parent => do
      let name ←
        match definition.name? with
        | some name => pure name
        | none => Work.generateName
      Work.write .debug ("wrapping " ++ definition.level.name ++ " definition \"" ++ name ++
        "\" in a " ++ parent.name ++ " definition")
      Work.check (definition.wrap name)

def liftTimes : Nat → Definition → Work Definition
  | 0, definition => pure definition
  | count + 1, definition => do liftTimes count (← definition.lift)

def lowerTimes : Nat → Definition → Resource → Except ScenarioError (Resource × Definition)
  | 0, definition, resource => .ok (resource, definition)
  | count + 1, definition, resource => do
      let below ← definition.lower resource
      lowerTimes count below.2 below.1

end Definition

namespace Creation

def container (resource : Resource) (definition : Definition) : Work Traversal := do
  let wanted ← Work.check definition.asContainer
  let handle ← Work.check resource.asContainer
  let name := handle.canonicalName
  if !wanted.isWanted then
    Work.note .debug ("not creating container " ++ name ++ ": it should not exist")
    return .skipChildren
  else
    Work.note .debug ("creating container " ++ name)
    if ← Work.access .createContainer name (handle.create wanted.properties) then
      Work.track resource
    else Work.note .debug ("container " ++ name ++ " already existed, not tracking it")
    return .descend

/-- An object without a body is created empty. -/
def object (resource : Resource) (definition : Definition) : Work Traversal := do
  let wanted ← Work.check definition.asObject
  let handle ← Work.check resource.asObject
  let name := handle.canonicalName
  if !wanted.isWanted then
    Work.note .debug ("not creating object " ++ name ++ ": it should not exist")
    return .skipChildren
  else
    let body := wanted.body.getD (.zeros 0)
    Work.note .debug ("creating " ++ handle.kind.name ++ " " ++ name ++ " (" ++
      toString body.size ++ " bytes)")
    Work.access .createObject name (handle.create body wanted.properties)
    Work.track resource
    return .descend

def callbacks : Callbacks Session :=
  (Callbacks.none.on .container container).on .object object

end Creation

def create (base : Resource) (definition : Definition) : Work Resource := do
  if definition.level < base.level then
    throw (.resourceDeeperThanDefinition base.level definition.level)
  else
    let steps := definition.level.depth - base.level.depth
    let lifted ← Definition.liftTimes steps definition
    Work.note .debug ("lifted " ++ definition.level.name ++ " definition " ++ toString steps ++
      " time(s) to match " ++ base.canonicalName)
    lifted.traverse Creation.callbacks base
    let lowered ← Work.check (Definition.lowerTimes steps lifted base)
    Work.note .info ("created " ++ definition.level.name ++ " " ++ lowered.1.canonicalName)
    return lowered.1

end StorageScenario
