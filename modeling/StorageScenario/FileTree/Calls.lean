import StorageScenario.FileTree.Lookup

/-!
Calls on a file tree. Every call takes a path as text, changes the tree and may
fail; a call that fails halfway leaves what it has done. New directories have
mode 755 and new files 644.
-/

namespace StorageScenario

abbrev Disk (α : Type) := EStateM IoError FileTree α

namespace Disk

def fail {α : Type} (cause : FileFault) : Disk α := throw (.fault cause)

def check {α : Type} (result : Except FileFault α) : Disk α :=
  match result with
  | .ok value => pure value
  | .error cause => fail cause

/-- No name holds a NUL character, and no path is empty or too long. -/
def checkPath (path : String) : Disk Unit :=
  if '\x00' ∈ path.toList then throw .nulInName
  else if path = "" then fail .notFound
  else if FileTree.longestPath < path.utf8ByteSize then fail .invalidFilename
  else pure ()

def demand (node : Node) (permission : Permission) : Disk Unit :=
  if node.allows permission then pure () else fail .permissionDenied

def demandChange (directory : Node) : Disk Unit := do
  demand directory .write
  demand directory .search

def spot (path : String) (aim : FileTree.Aim) : Disk FileTree.Spot := do
  checkPath path
  check ((← get).search aim (DiskPath.route path))

def locate (path : String) (aim : FileTree.Aim) : Disk FileTree.Place := do
  match ← spot path aim with
  | .found place => pure place
  | .vacant _ _ => fail .notFound

def metadata (path : String) : Disk Node := do
  return (← locate path .target).node

def linkMetadata (path : String) : Disk Node := do
  return (← locate path .entry).node

/-- Only a missing node is absent; any other obstacle is an error. -/
def isPresent (path : String) : Disk Bool := fun tree =>
  match metadata path tree with
  | .ok _ after => .ok true after
  | .error (.fault .notFound) after => .ok false after
  | .error cause after => .error cause after

def isDirectory (path : String) : Disk Bool := fun tree =>
  match metadata path tree with
  | .ok node after => .ok node.isDirectory after
  | .error _ after => .ok false after

def change (place : FileTree.Place) (change : Node → Node) : Disk Unit :=
  modify fun tree => tree.update place.names change

def addEntry (directory : FileTree.Place) (name : String) (node : Node) : Disk Unit := do
  demandChange directory.node
  change directory (Node.putEntry (← get).clock name node)

def dropEntry (directory : FileTree.Place) (name : String) : Disk Unit :=
  modify fun tree => tree.update directory.names (Node.dropEntry tree.clock name)

/-- The last step of a path, with the directory in which it is to be made. The
root has none. -/
def lastStep (path : String) : Disk (Option (FileTree.Place × DiskPath.Step)) := do
  checkPath path
  match (DiskPath.steps path).reverse with
  | [] => return none
  | last :: above => return some (← check ((← get).enter above.reverse), last)

def entry? (directory : FileTree.Place) (name : String) : Disk (Option Node) :=
  check (FileTree.lookUp .entry directory name [])

/-- Set on a directory whose new subdirectories take it over. -/
def groupBit : UInt32 := 0o2000

/-- Makes one directory, in a directory that is there. -/
def makeDirectory (path : String) : Disk Unit := do
  match ← lastStep path with
  | some (directory, .down name) =>
      match ← entry? directory name with
      | some _ => fail .alreadyExists
      | none =>
          addEntry directory name
            (.directory (0o755 ||| (directory.node.mode &&& groupBit)) (← get).clock [])
  | _ => fail .alreadyExists

/-- A directory may be there already, also behind a link. -/
def makeOrKeep (path : String) : Disk Unit := fun tree =>
  match makeDirectory path tree with
  | .ok () after => .ok () after
  | .error cause after =>
      match isDirectory path after with
      | .ok true later => .ok () later
      | .ok false later => .error cause later
      | .error _ later => .error cause later

/-- Makes the first of the paths, and the ones after it where that is needed
first. -/
def makeLineage : List String → Disk Unit
  | [] => pure ()
  | path :: above => fun tree =>
      match makeDirectory path tree with
      | .ok () after => .ok () after
      | .error (.fault .notFound) after => (do makeLineage above; makeOrKeep path) after
      | .error _ after => makeOrKeep path after

/-- Makes a directory with all that are missing above it. -/
def makeDirectories (path : String) : Disk Unit :=
  makeLineage (DiskPath.lineage path)

/-- Set on a file that runs with the rights of its owner. -/
def setOwnerBit : UInt32 := 0o4000

def groupRunBit : UInt32 := 0o10

/-- The mode of a file whose content is replaced. It no longer runs with the
rights of its owner or, if its group may run it, of its group. -/
def rewrittenMode (mode : UInt32) : UInt32 :=
  let lost := if mode &&& groupRunBit = 0 then setOwnerBit else setOwnerBit ||| groupBit
  mode &&& ~~~lost

/-- Replaces the content of a file, or makes the file. -/
def writeFile (path : String) (content : Bytes) : Disk Unit := do
  let now := (← get).clock
  match ← spot path .writing with
  | .vacant directory name => addEntry directory name (.file 0o644 now content)
  | .found place =>
      match place.node with
      | .file mode _ _ => do
          demand place.node .write
          change place fun _ => .file (rewrittenMode mode) now content
      | .directory _ _ _ => fail .isADirectory
      | .link _ _ => fail .filesystemLoop

/-- Opens what a path leads to. This succeeds with a directory too. -/
def openNode (path : String) : Disk FileTree.Place := do
  let place ← locate path .target
  demand place.node .read
  return place

/-- Reading a directory fails after it has been opened. -/
def readFile (path : String) : Disk (Except IoError Bytes) := do
  match (← openNode path).node with
  | .file _ _ content => return .ok content
  | _ => return .error (.fault .isADirectory)

def directoryNode (path : String) : Disk Node := do
  let node ← metadata path
  if node.isDirectory then
    demand node .read
    return node
  else fail .notADirectory

def modeMask : UInt32 := 0o7777

def setMode (path : String) (mode : UInt32) : Disk Unit := do
  change (← locate path .target) (Node.withMode (mode &&& modeMask))

def setModified (path : String) (instant : Instant) : Disk Unit := do
  change (← openNode path) (Node.withModified instant)

/-- The path of a node without links, `.` and `..`. -/
def canonical (path : String) : Disk String := do
  return DiskPath.ofNames (← locate path .spelling).names

/-- Makes a link. Its target need not exist, but could be a path. -/
def makeLink (path target : String) : Disk Unit := do
  checkPath target
  match ← lastStep path with
  | some (directory, .down name) =>
      match ← entry? directory name with
      | some _ => fail .alreadyExists
      | none =>
          if DiskPath.endsWithSlash path then fail .notFound
          else addEntry directory name (.link (← get).clock target)
  | _ => fail .alreadyExists

/-- Removes the entry of a file or a link. -/
def unlink (path : String) : Disk Unit := do
  match ← lastStep path with
  | some (directory, .down name) =>
      match ← entry? directory name with
      | none => fail .notFound
      | some node =>
          if DiskPath.endsWithSlash path then
            fail (if node.isDirectory then .isADirectory else .notADirectory)
          else
            demandChange directory.node
            if node.isDirectory then fail .isADirectory else dropEntry directory name
  | _ => fail .isADirectory

def removeDirectory (path : String) : Disk Unit := do
  match ← lastStep path with
  | none => fail .resourceBusy
  | some (directory, .down name) =>
      match ← entry? directory name with
      | none => fail .notFound
      | some node =>
          demandChange directory.node
          if node.isDirectory then dropEntry directory name else fail .notADirectory
  | some (_, .up) => fail .directoryNotEmpty
  | some _ => fail .invalidInput

/-- Removes a directory with all it holds, or a link but not what it leads to. A
path that does not lead to the emptied directory any more is left alone. -/
def removeAll (path : String) : Disk Unit := do
  match ← linkMetadata path with
  | .link _ _ => unlink path
  | .file _ _ _ => fail .notADirectory
  | .directory _ _ _ => do
      let place ← locate path .target
      let (left, stopped) := place.node.clear (← get).clock
      change place fun _ => left
      if stopped then fail .permissionDenied
      else fun tree =>
        match removeDirectory path tree with
        | .error (.fault .notFound) after => .ok () after
        | result => result

end Disk

end StorageScenario
