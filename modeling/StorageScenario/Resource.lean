import StorageScenario.DiskPath
import StorageScenario.Error
import StorageScenario.ObjectPath
import StorageScenario.Text

/-!
Handles to resources. A handle says which resource it stands for and never
whether that resource exists. Services belong to one of three back-ends: a
rehearsal that pretends, an emulated account, or a directory on disk.
-/

namespace StorageScenario

/-- An emulated account. The number tells apart accounts that have had the same
name. -/
structure Account where
  id : Nat
  name : String
  kind : AccountKind
  deriving DecidableEq

inductive ServiceHandle where
  | rehearsal (location : Location)
  | memory (account : Account) (location : Location)
  | disk (root : String)
  deriving DecidableEq

structure ContainerHandle where
  service : ServiceHandle
  name : String
  deriving DecidableEq

/-- The path is clean; the empty path is the root folder of the container. -/
structure ObjectHandle where
  container : ContainerHandle
  path : String
  kind : EntityKind
  deriving DecidableEq

inductive Resource where
  | service (handle : ServiceHandle)
  | container (handle : ContainerHandle)
  | object (handle : ObjectHandle)
  deriving DecidableEq

namespace Account

def describe (account : Account) : String :=
  Text.openRecord "MemoryAccount"
    [("name", Text.quote account.name), ("account_type", account.kind.tag)]

/-- The locations for which an account keeps a store, in listing order. It has been given
one for each location that its kind serves. -/
def stores (account : Account) : List Location := Location.sorted account.kind.services

theorem mem_stores_iff (account : Account) (location : Location) :
    location ∈ account.stores ↔ account.kind.offers location = true := by
  unfold stores Location.sorted AccountKind.offers
  rw [List.mem_mergeSort, decide_eq_true_iff]

def service (account : Account) (location : Location) : Except BackendError ServiceHandle :=
  if location ∈ account.stores then .ok (.memory account location)
  else .error (.serviceUnavailable account.name location)

end Account

namespace ServiceHandle

def location : ServiceHandle → Location
  | .rehearsal location => location
  | .memory _ location => location
  | .disk _ => .disk

def account? : ServiceHandle → Option Account
  | .memory account _ => some account
  | _ => none

def isOnDisk : ServiceHandle → Bool
  | .disk _ => true
  | _ => false

def canonicalName : ServiceHandle → String
  | .rehearsal location => "mock/" ++ location.name
  | .memory account location => account.name ++ "/" ++ location.name
  | .disk root => root

def uri : ServiceHandle → String
  | .rehearsal location => "mock://" ++ location.name
  | .memory account location => "memory://" ++ account.name ++ "." ++ location.name
  | .disk root => root

def describe : ServiceHandle → String
  | .rehearsal location => Text.record "MockService" [("location", location.tag)]
  | .memory account location =>
      Text.record "MemoryService" [("account", account.describe), ("location", location.tag)]
  | .disk root => Text.record "LocalService" [("root", Text.quote root)]

def family : ServiceHandle → String
  | .rehearsal _ => "Mock"
  | .memory _ _ => "Memory"
  | .disk _ => "Local"

def container (service : ServiceHandle) (name : String) : ContainerHandle := ⟨service, name⟩

end ServiceHandle

namespace ContainerHandle

def location (container : ContainerHandle) : Location := container.service.location

def canonicalName (container : ContainerHandle) : String :=
  container.service.canonicalName ++ "/" ++ container.name

/-- On disk this is the path of the container's directory. -/
def uri (container : ContainerHandle) : String :=
  match container.service with
  | .disk root => DiskPath.join root container.name
  | service => service.uri ++ "/" ++ container.name

def describe (container : ContainerHandle) : String :=
  Text.record (container.service.family ++ "Container")
    [("service", container.service.describe), ("name", Text.quote container.name)]

def object (container : ContainerHandle) (path : String) (kind : EntityKind) : ObjectHandle :=
  ⟨container, ObjectPath.clean path, kind⟩

end ContainerHandle

namespace ObjectHandle

def location (object : ObjectHandle) : Location := object.container.location

def isRoot (object : ObjectHandle) : Bool := object.path = ""

def canonicalName (object : ObjectHandle) : String :=
  if object.isRoot then object.container.canonicalName
  else object.container.canonicalName ++ "/" ++ object.path

def uri (object : ObjectHandle) : String :=
  match object.container.service with
  | .disk _ =>
      if object.isRoot then object.container.uri
      else DiskPath.join object.container.uri object.path
  | _ => object.container.uri ++ "/" ++ object.path

def describe (object : ObjectHandle) : String :=
  Text.record (object.container.service.family ++ "Object")
    [("container", object.container.describe), ("path", Text.quote object.path),
      ("entity_type", object.kind.tag)]

end ObjectHandle

namespace Resource

def level : Resource → Level
  | .service _ => .service
  | .container _ => .container
  | .object _ => .object

def serviceHandle : Resource → ServiceHandle
  | .service handle => handle
  | .container handle => handle.service
  | .object handle => handle.container.service

def location (resource : Resource) : Location := resource.serviceHandle.location

def account? (resource : Resource) : Option Account := resource.serviceHandle.account?

/-- A name people read, unique enough to attribute failures to. -/
def canonicalName : Resource → String
  | .service handle => handle.canonicalName
  | .container handle => handle.canonicalName
  | .object handle => handle.canonicalName

def uri : Resource → String
  | .service handle => handle.uri
  | .container handle => handle.uri
  | .object handle => handle.uri

def describe (resource : Resource) : String :=
  resource.level.tag ++ "(" ++
    (match resource with
      | .service handle => handle.describe
      | .container handle => handle.describe
      | .object handle => handle.describe) ++ ")"

def parent? : Resource → Option Resource
  | .service _ => none
  | .container handle => some (.service handle.service)
  | .object handle => some (.container handle.container)

/-- The resource of the given name one level down. Only objects have a kind. -/
def child (resource : Resource) (name : String) (kind : EntityKind) :
    Except ScenarioError Resource :=
  match resource with
  | .service handle => .ok (.container (handle.container name))
  | .container handle => .ok (.object (handle.object name kind))
  | .object _ => .error (.noAdoptiveChild .object)

def asService (resource : Resource) : Except ScenarioError ServiceHandle :=
  match resource with
  | .service handle => .ok handle
  | other => .error (.levelMismatch .service other.level)

def asContainer (resource : Resource) : Except ScenarioError ContainerHandle :=
  match resource with
  | .container handle => .ok handle
  | other => .error (.levelMismatch .container other.level)

def asObject (resource : Resource) : Except ScenarioError ObjectHandle :=
  match resource with
  | .object handle => .ok handle
  | other => .error (.levelMismatch .object other.level)

def atLevel (resource : Resource) (level : Level) : Except ScenarioError Resource :=
  if resource.level = level then .ok resource
  else .error (.levelMismatch level resource.level)

end Resource

end StorageScenario
