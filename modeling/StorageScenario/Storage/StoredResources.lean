import StorageScenario.Storage

/-!
Containers and objects of emulated accounts. Every call reads and writes the
store of one service; a call that fails writes nothing.
-/

namespace StorageScenario.StoredResources

def container (account : Account) (location : Location) (name resource : String) :
    Access StoredContainer := do
  match (← Access.readStore account location).get? name with
  | some stored => return stored
  | none => throw (.notFound resource)

def putContainer (account : Account) (location : Location) (name : String)
    (stored : StoredContainer) : Access Unit := do
  Access.writeStore account location ((← Access.readStore account location).insert name stored)

def containers (account : Account) (location : Location) : Access (List String) := do
  return (← Access.readStore account location).keys

def containerIsPresent (account : Account) (location : Location) (name : String) : Access Bool := do
  return (← Access.readStore account location).contains name

/-- Tells whether the container is new. One that is there stays as it is. -/
def createContainer (account : Account) (location : Location) (name : String)
    (properties : ContainerProperties) : Access Bool := do
  if ← containerIsPresent account location name then return false
  else
    putContainer account location name (StoredContainer.created properties)
    return true

def deleteContainer (account : Account) (location : Location) (name : String) : Access Unit := do
  Access.writeStore account location ((← Access.readStore account location).erase name)

/-- The body is read before the store is looked at, so an unreadable body wins
over a missing container. -/
def createObject (account : Account) (location : Location) (object : ObjectHandle) (body : Body)
    (properties : ObjectProperties) : Access Unit := do
  match body.contents with
  | .error cause => throw (.io object.canonicalName cause)
  | .ok data =>
      let name := object.container.name
      let stored ← container account location name object.container.canonicalName
      putContainer account location name (stored.putObject object.path
        ⟨StoredContainer.storedProperties location object.kind properties, data⟩)

/-- Nothing happens in a missing container. -/
def deleteObject (account : Account) (location : Location) (object : ObjectHandle) :
    Access Unit := do
  match (← Access.readStore account location).get? object.container.name with
  | none => return ()
  | some stored =>
      putContainer account location object.container.name
        (stored.removeObject location.isHierarchical object.path)

def objectIsPresent (account : Account) (location : Location) (object : ObjectHandle) :
    Access Bool := do
  match (← Access.readStore account location).get? object.container.name with
  | none => return false
  | some stored => return stored.hasObject location.isHierarchical object.path

def objectProperties (account : Account) (location : Location) (object : ObjectHandle) :
    Access ObjectProperties := do
  let stored ← container account location object.container.name object.canonicalName
  match stored.objectProperties? location.isHierarchical object.path with
  | some properties => return properties
  | none => throw (.notFound object.canonicalName)

def setObjectProperties (account : Account) (location : Location) (object : ObjectHandle)
    (properties : ObjectProperties) : Access Unit := do
  let stored ← container account location object.container.name object.canonicalName
  match stored.setObjectProperties? object.path properties with
  | some changed => putContainer account location object.container.name changed
  | none => throw (.notFound object.canonicalName)

def listChildren (account : Account) (location : Location) (object : ObjectHandle)
    (recursive : Bool) : Access (Table ObjectProperties) := do
  let stored ← container account location object.container.name object.canonicalName
  return stored.listChildren object.path recursive

/-- The root folder has no bytes to give. -/
def download (account : Account) (location : Location) (object : ObjectHandle) : Access Bytes := do
  match (← Access.readStore account location).get? object.container.name with
  | none => throw (.notFound object.canonicalName)
  | some stored =>
      match stored.objects.get? object.path with
      | some found => return found.data
      | none => throw (.notFound object.canonicalName)

end StorageScenario.StoredResources
