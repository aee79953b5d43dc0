import StorageScenario.Body
import StorageScenario.Instant

/-!
A file system as a finite tree of nodes under one root: files, symbolic links and
directories with all they hold, each with the time of its last change and a mode.
Everything belongs to the only user of the tree, for whom the owner's bits of the
modes count.
-/

namespace StorageScenario

/-- What the owner of a node may be allowed to do with it. In a directory,
reading is to list the names, writing to add and remove them, and searching to
look one of them up. -/
inductive Permission where
  | read
  | write
  | search
  deriving DecidableEq

def Permission.bit : Permission → UInt32
  | .read => 0o400
  | .write => 0o200
  | .search => 0o100

inductive Node where
  | file (mode : UInt32) (modified : Instant) (content : Bytes)
  | link (modified : Instant) (target : String)
  | directory (mode : UInt32) (modified : Instant) (entries : List (String × Node))

namespace Node

def isDirectory : Node → Bool
  | .directory _ _ _ => true
  | _ => false

/-- Permission bits. Those of a link are always all set. -/
def mode : Node → UInt32
  | .file mode _ _ => mode
  | .link _ _ => 0o777
  | .directory mode _ _ => mode

def modified : Node → Instant
  | .file _ modified _ => modified
  | .link modified _ => modified
  | .directory _ modified _ => modified

def entries : Node → List (String × Node)
  | .directory _ _ entries => entries
  | _ => []

def allows (node : Node) (permission : Permission) : Bool :=
  node.mode &&& permission.bit ≠ 0

def update (change : Node → Node) : List String → Node → Node
  | [], node => change node
  | name :: rest, .directory mode modified entries =>
      .directory mode modified (entries.map fun entry =>
        if entry.1 = name then (entry.1, update change rest entry.2) else entry)
  | _ :: _, node => node

def putEntry (now : Instant) (name : String) (child : Node) : Node → Node
  | .directory mode _ entries =>
      .directory mode now ((entries.filter fun entry => entry.1 ≠ name) ++ [(name, child)])
  | node => node

def dropEntry (now : Instant) (name : String) : Node → Node
  | .directory mode _ entries =>
      .directory mode now (entries.filter fun entry => entry.1 ≠ name)
  | node => node

def withMode (mode : UInt32) : Node → Node
  | .file _ modified content => .file mode modified content
  | .link modified target => .link modified target
  | .directory _ modified entries => .directory mode modified entries

def withModified (modified : Instant) : Node → Node
  | .file mode _ content => .file mode modified content
  | .link _ target => .link modified target
  | .directory mode _ entries => .directory mode modified entries

mutual

/-- What is left of a directory after its contents have been removed one by one,
and whether a missing permission stopped that. To remove an entry takes writing
and searching in the directory around it, and to look into a directory takes
reading there. -/
def clear (now : Instant) : Node → Node × Bool
  | .directory mode modified entries =>
      let before := Node.directory mode modified entries
      if before.allows .read then
        let (kept, stopped) :=
          clearEntries now (before.allows .search) (before.allows .write) entries
        (.directory mode (if kept.length < entries.length then now else modified) kept, stopped)
      else (before, true)
  | .file mode modified content => (.file mode modified content, false)
  | .link modified target => (.link modified target, false)

def clearEntries (now : Instant) (searchable writable : Bool) :
    List (String × Node) → List (String × Node) × Bool
  | [] => ([], false)
  | (name, node) :: rest =>
      if searchable then
        let (left, stopped) := node.clear now
        if writable && !stopped then clearEntries now searchable writable rest
        else ((name, left) :: rest, true)
      else ((name, node) :: rest, true)

end

end Node

structure FileTree where
  root : Node
  clock : Instant

namespace FileTree

def update (tree : FileTree) (place : List String) (change : Node → Node) : FileTree :=
  { tree with root := tree.root.update change place }

def ofDirectories (clock : Instant) (names : List String) : FileTree :=
  ⟨.directory 0o755 clock
      (names.foldr (fun name entries => [(name, Node.directory 0o755 clock entries)]) []), clock⟩

end FileTree

end StorageScenario
