import StorageScenario.FileTree.Survey
import StorageScenario.Storage

/-!
Containers and objects as directories and files. A container is a directory at
the root of its service, an object a file or directory at its path in there, and
the root folder of a container is the directory itself. Of all properties only
the kind, the time of the last write and the permission bits can be told, and
only the permission bits can be set.
-/

namespace StorageScenario.DiskResources

def nodeProperties (node : Node) : ObjectProperties :=
  { kind := if node.isDirectory then .folder else .file
    file := { lastWriteTime := some node.modified }
    nfs := { fileMode := some (node.mode &&& Disk.modeMask) } }

def listed (folder : Folder) : List (String × ObjectProperties) :=
  folder.node.entries.map fun entry =>
    (ObjectPath.join folder.relative entry.1, nodeProperties entry.2)

/-- What a directory holds, by path relative to it. Links are listed as they are,
and a missing directory holds nothing. -/
def scan (path : String) (recursive : Bool) : Access (Table ObjectProperties) := do
  if ← Access.atPath path (Disk.isPresent path) then
    let directory ← Access.atPath path (Disk.directoryNode path)
    match Folder.visit recursive [⟨path, "", directory⟩] with
    | .error (place, cause) => throw (.io place (.fault cause))
    | .ok folders => return Table.ofList (folders.flatMap listed)
  else return ∅

def applyMode (path : String) (properties : ObjectProperties) : Access Unit :=
  match properties.nfs.fileMode with
  | none => pure ()
  | some mode => Access.atPath path (Disk.setMode path mode)

/-- Opens the service at a directory, which is made if it is missing, and whose
path loses all links and dots. -/
def openService (path : String) : Access ServiceHandle := do
  Access.atPath path (Disk.makeDirectories path)
  return .disk (← Access.atPath path (Disk.canonical path))

def containers (root : String) : Access (List String) := do
  let found ← scan root false
  return (found.filter fun _ properties => properties.kind = .folder).keys

def containerIsPresent (path : String) : Access Bool := do
  if ← Access.atPath path (Disk.isPresent path) then
    Access.atPath path (Disk.isDirectory path)
  else return false

/-- Tells whether the directory is new. -/
def createContainer (path : String) : Access Bool := do
  let present ← containerIsPresent path
  Access.atPath path (Disk.makeDirectories path)
  return !present

def deleteContainer (path : String) : Access Unit := fun storage =>
  match Access.existingAt path (Disk.removeAll path) storage with
  | .error (.notFound _) after => .ok () after
  | result => result

def listObjects (path within : String) (recursive : Bool) : Access (Table ObjectProperties) := do
  let folder := ObjectPath.clean within
  let found ← scan (DiskPath.join path folder) recursive
  return Table.ofList (found.entries.map fun entry => (ObjectPath.join folder entry.1, entry.2))

def createFolder (path : String) (properties : ObjectProperties) : Access Unit := do
  Access.atPath path (Disk.makeDirectories path)
  applyMode path properties

/-- A body that fails leaves in the file what it has yielded. -/
def createFile (path : String) (body : Body) (properties : ObjectProperties) : Access Unit := do
  match DiskPath.parent? path with
  | none => pure ()
  | some parent => Access.atPath parent (Disk.makeDirectories parent)
  Access.atPath path (Disk.writeFile path body.yielded)
  match body.failure? with
  | some cause => throw (.io path cause)
  | none => applyMode path properties

/-- A link goes without what it leads to. -/
def deleteObject (path : String) : Access Unit := fun storage =>
  match Access.existingAt path (Disk.linkMetadata path) storage with
  | .error (.notFound _) after => .ok () after
  | .error error after => .error error after
  | .ok node after =>
      if node.isDirectory then Access.atPath path (Disk.removeAll path) after
      else Access.atPath path (Disk.unlink path) after

def objectProperties (path : String) : Access ObjectProperties := do
  return nodeProperties (← Access.existingAt path (Disk.metadata path))

def download (path : String) : Access (Except IoError Bytes) :=
  Access.existingAt path (Disk.readFile path)

end StorageScenario.DiskResources
