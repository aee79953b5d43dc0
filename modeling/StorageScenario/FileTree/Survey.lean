import StorageScenario.FileTree.Lookup

/-!
Directories below a directory, in the order in which a listing meets them: those in
a directory wait behind all that have been met before it was read. A listing ends at
the first directory that cannot be read.
-/

namespace StorageScenario

namespace Node

mutual

def size : Node → Nat
  | .directory _ _ entries => entriesSize entries + 1
  | .file _ _ _ => 1
  | .link _ _ => 1

def entriesSize : List (String × Node) → Nat
  | [] => 0
  | (_, node) :: rest => node.size + entriesSize rest

end

end Node

/-- A directory that a listing has met: its path as it is spelled there, and its
path relative to the start. -/
structure Folder where
  path : String
  relative : String
  node : Node

namespace Folder

/-- Why a directory that has been met cannot be listed, and the path on which that
happens. Its names are read by its own path, and each entry is looked up in it. -/
def obstacle? (folder : Folder) : Option (String × FileFault) :=
  if FileTree.longestPath < folder.path.utf8ByteSize then some (folder.path, .invalidFilename)
  else if !folder.node.allows .read then some (folder.path, .permissionDenied)
  else
    match folder.node.entries with
    | [] => none
    | first :: _ =>
        if folder.node.allows .search then none
        else some (DiskPath.join folder.path first.1, .permissionDenied)

def inside (folder : Folder) : List Folder :=
  (folder.node.entries.filter fun entry => entry.2.isDirectory).map fun entry =>
    ⟨DiskPath.join folder.path entry.1, ObjectPath.join folder.relative entry.1, entry.2⟩

/-- What a listing has to read after a directory. -/
def following (recursive : Bool) (folder : Folder) : List Folder :=
  if recursive then folder.inside else []

def workload : List Folder → Nat
  | [] => 0
  | folder :: waiting => folder.node.size + workload waiting

theorem workload_append (first second : List Folder) :
    workload (first ++ second) = workload first + workload second := by
  induction first with
  | nil => simp [workload]
  | cons folder rest ih => simp only [List.cons_append, workload, ih, Nat.add_assoc]

theorem workload_inside (folder : Folder) : workload folder.inside < folder.node.size := by
  obtain ⟨path, relative, node⟩ := folder
  cases node with
  | file mode modified content => simp [workload, inside, Node.entries, Node.size]
  | link modified target => simp [workload, inside, Node.entries, Node.size]
  | directory mode modified entries =>
      have fits : workload (inside ⟨path, relative, .directory mode modified entries⟩) ≤
          Node.entriesSize entries := by
        unfold inside
        rw [Node.entries]
        induction entries with
        | nil => simp [workload, Node.entriesSize]
        | cons entry rest ih =>
            rw [Node.entriesSize, List.filter_cons]
            split
            · rw [List.map_cons, workload]
              exact Nat.add_le_add_left ih _
            · exact Nat.le_trans ih (Nat.le_add_left _ _)
      rw [Node.size]
      omega

/-- Reads the directories that wait, the first of them first, and puts what is to be
read in it behind the others. -/
def visit (recursive : Bool) : List Folder → Except (String × FileFault) (List Folder)
  | [] => .ok []
  | folder :: waiting =>
      match folder.obstacle? with
      | some obstacle => .error obstacle
      | none => (folder :: ·) <$> visit recursive (waiting ++ folder.following recursive)
termination_by waiting => workload waiting
decreasing_by
  have less := workload_inside folder
  have nothing : workload [] = 0 := rfl
  rw [workload_append, workload, following]
  split <;> omega

end Folder

end StorageScenario
