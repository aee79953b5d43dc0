import StorageScenario.Testing.Preparation

/-!
Everything that a service shows of itself: its containers, the properties of
each and of its root folder, and all its objects with the bodies of the files.
-/

namespace StorageScenario

structure ObjectSnapshot where
  path : String
  properties : ObjectProperties
  body : Option Bytes

structure ContainerSnapshot where
  name : String
  properties : ContainerProperties
  root : ObjectProperties
  objects : List ObjectSnapshot

namespace Step

def download (object : ObjectHandle) : Step Bytes := do
  match ← ofAccess object.download with
  | .ok bytes => return bytes
  | .error cause => throw (.io cause)

def objectSnapshot (container : ContainerHandle) (path : String) (properties : ObjectProperties) :
    Step ObjectSnapshot := do
  match properties.kind with
  | .file => return ⟨path, properties, some (← download (container.object path .file))⟩
  | .folder => return ⟨path, properties, none⟩

def containerSnapshot (container : ContainerHandle) : Step ContainerSnapshot := do
  let properties ← ofAccess container.properties
  let root ← ofAccess (container.object "" .folder).properties
  let listed ← ofAccess (container.list "" true)
  let objects ← listed.entries.mapM fun entry => objectSnapshot container entry.1 entry.2
  return ⟨container.name, properties, root, objects⟩

def serviceSnapshot (service : ServiceHandle) : Step (List ContainerSnapshot) := do
  (← ofAccess service.containers).mapM fun name => containerSnapshot (service.container name)

end Step

end StorageScenario
