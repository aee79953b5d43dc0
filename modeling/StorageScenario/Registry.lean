import StorageScenario.Session
import StorageScenario.Storage.ResourceCalls

/-!
Accounts by name, in the order in which they were last registered, and the
service that a scenario starts from.
-/

namespace StorageScenario

structure Registry where
  accounts : List Account

namespace Registry

def empty : Registry := ⟨[]⟩

/-- An earlier account with the same name goes. -/
def register (registry : Registry) (account : Account) : Registry :=
  ⟨(registry.accounts.filter fun other => other.name ≠ account.name) ++ [account]⟩

def account? (registry : Registry) (name : String) : Option Account :=
  registry.accounts.find? fun account => account.name = name

/-- The preferred account, or else the first that offers the location. -/
def choose (registry : Registry) (location : Location) (preferred : Option String) :
    Option Account :=
  match preferred with
  | some name => registry.account? name
  | none => registry.accounts.find? fun account => account.kind.offers location

def temporaryRoot : String := "/tmp"

/-- The service at a location: a rehearsal in a dry run, the directory of the
settings on disk, and otherwise the service of an account. -/
def rootResource (registry : Registry) (location : Location) (preferred : Option String) :
    Work Resource := do
  let settings := (← Work.context).settings
  if settings.dryRun then
    Work.note .debug ("dry run, using a mock " ++ location.name ++ " service")
    return .service (.rehearsal location)
  else if !location.isRemote then
    let root := settings.localRootOr temporaryRoot
    return .service (← Work.access .openLocalRoot root (DiskResources.openService root))
  else
    match registry.choose location preferred with
    | none => throw (.noAccountForLocation location)
    | some account =>
        Work.note .debug ("resolving the " ++ location.name ++ " service of account " ++
          account.name)
        match account.service location with
        | .ok service => return .service service
        | .error cause => throw (.backend .getService account.name cause)

end Registry

end StorageScenario
