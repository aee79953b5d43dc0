import StorageScenario.Storage.DiskResources
import StorageScenario.Storage.StoredResources

/-!
What can be done with a resource, whatever its back-end. In a rehearsal every
call succeeds, everything is there and nothing is kept.
-/

namespace StorageScenario

namespace ServiceHandle

def containers (service : ServiceHandle) : Access (List String) :=
  match service with
  | .rehearsal _ => pure []
  | .memory account location => StoredResources.containers account location
  | .disk root => DiskResources.containers root

end ServiceHandle

namespace ContainerHandle

def missing {α : Type} (container : ContainerHandle) : Access α :=
  throw (.notFound container.canonicalName)

def isPresent (container : ContainerHandle) : Access Bool :=
  match container.service with
  | .rehearsal _ => pure true
  | .memory account location =>
      StoredResources.containerIsPresent account location container.name
  | .disk _ => DiskResources.containerIsPresent container.uri

def create (container : ContainerHandle) (properties : ContainerProperties) : Access Bool :=
  match container.service with
  | .rehearsal _ => pure true
  | .memory account location =>
      StoredResources.createContainer account location container.name properties
  | .disk _ => DiskResources.createContainer container.uri

/-- A missing container is deleted already. -/
def delete (container : ContainerHandle) : Access Unit :=
  match container.service with
  | .rehearsal _ => pure ()
  | .memory account location => StoredResources.deleteContainer account location container.name
  | .disk _ => DiskResources.deleteContainer container.uri

def properties (container : ContainerHandle) : Access ContainerProperties :=
  match container.service with
  | .rehearsal _ => pure {}
  | .memory account location => do
      let stored ←
        StoredResources.container account location container.name container.canonicalName
      return stored.properties
  | .disk _ => do
      if ← container.isPresent then return {} else container.missing

def setProperties (container : ContainerHandle) (properties : ContainerProperties) : Access Unit :=
  match container.service with
  | .rehearsal _ => pure ()
  | .memory account location => do
      let stored ←
        StoredResources.container account location container.name container.canonicalName
      StoredResources.putContainer account location container.name
        { stored with properties := properties }
  | .disk _ => do
      if ← container.isPresent then return () else container.missing

/-- Objects by path. `within` is a folder, or in a flat service the beginning of
the names to list. -/
def list (container : ContainerHandle) (within : String) (recursive : Bool) :
    Access (Table ObjectProperties) :=
  match container.service with
  | .rehearsal _ => pure ∅
  | .memory account location => do
      let stored ←
        StoredResources.container account location container.name container.canonicalName
      return stored.list location.isHierarchical within recursive
  | .disk _ => DiskResources.listObjects container.uri within recursive

end ContainerHandle

namespace ObjectHandle

def isPresent (object : ObjectHandle) : Access Bool :=
  match object.container.service with
  | .rehearsal _ => pure true
  | .memory account location => StoredResources.objectIsPresent account location object
  | .disk _ =>
      if object.isRoot then object.container.isPresent
      else Access.atPath object.uri (Disk.isPresent object.uri)

def create (object : ObjectHandle) (body : Body) (properties : ObjectProperties) : Access Unit :=
  match object.container.service with
  | .rehearsal _ => pure ()
  | .memory account location =>
      StoredResources.createObject account location object body properties
  | .disk _ =>
      if object.isRoot || object.kind = .folder then
        DiskResources.createFolder object.uri properties
      else DiskResources.createFile object.uri body properties

/-- A missing object is deleted already. The root folder goes with its container
and not before. -/
def delete (object : ObjectHandle) : Access Unit :=
  match object.container.service with
  | .rehearsal _ => pure ()
  | .memory account location => StoredResources.deleteObject account location object
  | .disk _ => if object.isRoot then pure () else DiskResources.deleteObject object.uri

def properties (object : ObjectHandle) : Access ObjectProperties :=
  match object.container.service with
  | .rehearsal _ => pure { kind := object.kind }
  | .memory account location => StoredResources.objectProperties account location object
  | .disk _ => DiskResources.objectProperties object.uri

def setProperties (object : ObjectHandle) (properties : ObjectProperties) : Access Unit :=
  match object.container.service with
  | .rehearsal _ => pure ()
  | .memory account location =>
      StoredResources.setObjectProperties account location object properties
  | .disk _ => do
      if ← object.isPresent then DiskResources.applyMode object.uri properties
      else throw (.notFound object.canonicalName)

def children (object : ObjectHandle) (recursive : Bool) : Access (Table ObjectProperties) :=
  match object.container.service with
  | .rehearsal _ => pure ∅
  | .memory account location => StoredResources.listChildren account location object recursive
  | .disk _ => DiskResources.scan object.uri recursive

def download (object : ObjectHandle) : Access (Except IoError Bytes) :=
  match object.container.service with
  | .rehearsal _ => pure (.ok [])
  | .memory account location => do
      return .ok (← StoredResources.download account location object)
  | .disk _ => DiskResources.download object.uri

end ObjectHandle

namespace Resource

def isPresent (resource : Resource) : Access Bool :=
  match resource with
  | .service _ => pure true
  | .container handle => handle.isPresent
  | .object handle => handle.isPresent

def delete (resource : Resource) : Access Unit :=
  match resource with
  | .service handle => throw (.unsupported "delete service" handle.location)
  | .container handle => handle.delete
  | .object handle => handle.delete

end Resource

end StorageScenario
