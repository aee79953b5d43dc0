import StorageScenario.Body
import StorageScenario.ObjectPath
import StorageScenario.Properties
import StorageScenario.Text

/-!
The contents of one service of an emulated account: containers by name, and in
each container objects by clean path. The root folder of a container is not one
of its objects. In a hierarchical service a path above a stored object is a
folder even if nothing is stored there.
-/

namespace StorageScenario

structure StoredObject where
  properties : ObjectProperties
  data : Bytes
  deriving DecidableEq

structure StoredContainer where
  properties : ContainerProperties
  rootProperties : ObjectProperties
  objects : Table StoredObject
  deriving DecidableEq

abbrev ServiceStore := Table StoredContainer

namespace StoredContainer

def created (properties : ContainerProperties) : StoredContainer :=
  ⟨properties, ObjectProperties.folder, ∅⟩

/-- Whether an object is stored somewhere below a path. -/
def isImplicitFolder (container : StoredContainer) (path : String) : Bool :=
  container.objects.keys.any fun key => Text.startsWith key (ObjectPath.below path)

def hasObject (container : StoredContainer) (hierarchical : Bool) (path : String) : Bool :=
  path = "" || container.objects.contains path ||
    (hierarchical && container.isImplicitFolder path)

def objectProperties? (container : StoredContainer) (hierarchical : Bool) (path : String) :
    Option ObjectProperties :=
  if path = "" then some container.rootProperties
  else
    match container.objects.get? path with
    | some object => some object.properties
    | none =>
        if hierarchical && container.isImplicitFolder path then some ObjectProperties.folder
        else none

/-- Properties as they are stored: the entity kind is that of the resource, and
a file in a blob location has a blob type. -/
def storedProperties (location : Location) (kind : EntityKind) (properties : ObjectProperties) :
    ObjectProperties :=
  let kept := { properties with kind := kind }
  if (location = .blob ∨ location = .blobFs) ∧ kind = .file ∧ kept.blob.blobType = none then
    { kept with blob := { kept.blob with blobType := some .blockBlob } }
  else kept

/-- Puts an object at a path, or its properties on the root folder. -/
def putObject (container : StoredContainer) (path : String) (object : StoredObject) :
    StoredContainer :=
  if path = "" then
    { container with rootProperties := { object.properties with kind := .folder } }
  else { container with objects := container.objects.insert path object }

/-- Replaces the properties of what is stored at a path, but not its kind. -/
def setObjectProperties? (container : StoredContainer) (path : String)
    (properties : ObjectProperties) : Option StoredContainer :=
  if path = "" then
    some { container with
      rootProperties := { properties with kind := container.rootProperties.kind } }
  else
    match container.objects.get? path with
    | none => none
    | some object =>
        some { container with
          objects := container.objects.insert path
            { object with properties := { properties with kind := object.properties.kind } } }

/-- Removes the object at a path. In a hierarchical service everything below goes
with it, unless a file was stored there. The root folder stays. -/
def removeObject (container : StoredContainer) (hierarchical : Bool) (path : String) :
    StoredContainer :=
  if path = "" then container
  else
    let left := container.objects.erase path
    let wasFolder :=
      match container.objects.get? path with
      | some object => object.properties.kind = .folder
      | none => true
    if hierarchical && wasFolder then
      { container with
        objects := left.filter fun key _ => !Text.startsWith key (ObjectPath.below path) }
    else { container with objects := left }

/-- The parts of a text that end right before one of its slashes. -/
def beforeSlashes : List Char → List (List Char)
  | [] => []
  | letter :: rest =>
      let longer := (beforeSlashes rest).map (letter :: ·)
      if letter = '/' then [] :: longer else longer

def addFolder (listed : Table ObjectProperties) (path : String) : Table ObjectProperties :=
  if listed.contains path then listed else listed.insert path ObjectProperties.folder

def listObject (start : String) (recursive hierarchical : Bool) (listed : Table ObjectProperties)
    (entry : String × StoredObject) : Table ObjectProperties :=
  match Text.remainder? start entry.1 with
  | none => listed
  | some remainder =>
      if remainder = "" then listed
      else
        let folders := (beforeSlashes remainder.toList).map fun part => start ++ String.ofList part
        if recursive then
          (if hierarchical then folders.foldl addFolder listed else listed).insert
            entry.1 entry.2.properties
        else
          match folders with
          | [] => listed.insert entry.1 entry.2.properties
          | nearest :: _ => addFolder listed nearest

def listFrom (container : StoredContainer) (start : String) (recursive hierarchical : Bool) :
    Table ObjectProperties :=
  container.objects.entries.foldl (listObject start recursive hierarchical) ∅

def insideFolder (path : String) : String :=
  if path = "" then "" else ObjectPath.below path

/-- Objects under a folder of a hierarchical service, or those of a flat service
whose names begin with the given text. Unless the listing is recursive, deeper
objects show as the folders next to the start. -/
def list (container : StoredContainer) (hierarchical : Bool) (within : String) (recursive : Bool) :
    Table ObjectProperties :=
  let start := if hierarchical then insideFolder (ObjectPath.clean within) else within
  container.listFrom start recursive hierarchical

def listChildren (container : StoredContainer) (path : String) (recursive : Bool) :
    Table ObjectProperties :=
  let start := insideFolder path
  let listed := container.listFrom (insideFolder (ObjectPath.clean path)) recursive true
  Table.ofList (listed.entries.filterMap fun entry =>
    (Text.remainder? start entry.1).map fun remainder => (remainder, entry.2))

end StoredContainer

end StorageScenario
