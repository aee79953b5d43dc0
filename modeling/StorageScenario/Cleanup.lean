import StorageScenario.Session
import StorageScenario.Storage.ResourceCalls

/-!
What a scenario has created is tracked, and a cleanup deletes it, the latest first.
The first deletion that fails ends it, and nothing is tracked afterwards either way.
-/

namespace StorageScenario

def Context.track (context : Context) (resource : Resource) : Context :=
  { context with created := context.created ++ [resource] }

def Work.track (resource : Resource) : Work Unit :=
  Work.updateContext fun context => context.track resource

namespace Cleanup

def delete (resource : Resource) : Work Unit := do
  Work.note .debug ("deleting " ++ resource.canonicalName)
  Work.access .delete resource.canonicalName resource.delete

end Cleanup

def cleanup : Work Unit := do
  let created := (← Work.context).created
  Work.updateContext fun context => { context with created := [] }
  created.reverse.forM Cleanup.delete

end StorageScenario
