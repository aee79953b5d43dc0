import StorageScenario.Proofs.DirectoryDescent
import StorageScenario.Proofs.DiskContainers
import StorageScenario.Proofs.EntryRemoval

/-!
Deletions inside a tidy directory. A path that nothing bars leads to what stands under its names
or to nothing, and what it leads to goes away if the directory above lets go of it and all
directories below belong to the caller. Whether it was a file or was cleared before, what is left
is the directory without that entry.
-/

namespace StorageScenario

open DiskPath ObjectPath FileTree Work

namespace FileTree

/-- The way to a directory does not depend on what stands at or below names. -/
def Avoids (way : List DiskPath.Step) (left : Nat) (base names : List String) (root : Node) :
    Prop :=
  ∀ after, root.Spared names after → Leads after linkLimit [] way left base

section Ways

variable {way : List DiskPath.Step} {left : Nat} {base names : List String} {tree : FileTree}
  {origin ground : Node}

/-- The way in a tree that held nothing there avoids it. -/
theorem avoids_of_stays {root : Node} (leads : Leads origin linkLimit [] way left base)
    (stays : origin.StaysIn root) (isNew : origin.at? names = none) :
    Avoids way left base names root :=
  fun _ spared => leads.stays (stays.apart isNew spared)

end Ways

end FileTree

namespace Disk

section Dropping

variable {way : List DiskPath.Step} {left : Nat} {base front : List String} {tree : FileTree}
  {ground node : Node} {name path : String}

theorem demand_of_allows {permission : Permission} (allows : node.allows permission = true)
    (tree : FileTree) : demand node permission tree = .ok () tree := by
  unfold demand
  rw [if_pos allows]
  rfl

theorem demand_change_of_changeable (changeable : node.Changeable) (tree : FileTree) :
    demandChange node tree = .ok () tree := by
  unfold demandChange
  rw [bind_of_ok (demand_of_allows changeable.2.1 tree)]
  exact demand_of_allows changeable.2.2 tree

/-- A path inside is in a directory that can be changed, under a name of it. -/
structure Removable (path : String) (front : List String) (name : String) (way : List DiskPath.Step)
    (ground : Node) : Prop where
  into : GoesInto way (front ++ [name]) path
  fits : PathFits path
  unbarred : ground.Unbarred (front ++ [name])
  changeable : ∀ {directory}, ground.at? front = some directory →
    directory.entries.lookup name ≠ none → directory.Changeable

theorem Removable.changed (removable : Removable path front name way ground)
    (isThere : ground.at? (front ++ [name]) = some node) (change : Node → Node) :
    Removable path front name way (ground.update change (front ++ [name])) := by
  have above : ∀ {others}, others.length ≤ front.length →
      Node.Remains (ground.at? others) ((ground.update change (front ++ [name])).at? others) := by
    intro others short
    apply Node.remains_elsewhere
    intro inside
    have long := inside.length_le
    rw [List.length_append, List.length_singleton] at long
    omega
  refine ⟨removable.into, removable.fits, removable.unbarred.later ?_, ?_⟩
  · intro first other rest directory whole stands
    refine Node.earlier_of_remains (above ?_) stands
    have length := congrArg List.length whole
    simp only [List.length_append, List.length_cons, List.length_nil] at length
    omega
  · intro directory stands _
    obtain ⟨held, isHeld, unaltered⟩ := Node.earlier_of_remains (above (Nat.le_refl _)) stands
    refine (removable.changeable isHeld ?_).later unaltered
    rw [← Node.at?_snoc isHeld, isThere]
    exact Option.some_ne_none node

variable (grounds : Grounds way left base tree ground)
  (removable : Removable path front name way ground)
  (isThere : ground.at? (front ++ [name]) = some node)
include grounds removable isThere

theorem last_entry_inside :
    ∃ place, lastStep path tree = .ok (some (place, .down name)) tree ∧
      place.names = base ++ front ∧ entry? place name tree = .ok (some node) tree ∧
      demandChange place.node tree = .ok () tree := by
  obtain ⟨directory, inFront, below⟩ := Option.bind_eq_some_iff.mp
    ((Node.at?_append _ _ _).symm.trans isThere)
  obtain ⟨child, entry, isNode⟩ := Option.bind_eq_some_iff.mp below
  cases isNode
  obtain ⟨short, holds⟩ := removable.unbarred front name [] rfl
  obtain ⟨place, stepped, named, rfl⟩ :=
    last_step_inside grounds removable.into removable.fits removable.unbarred inFront
  refine ⟨place, stepped, named, ?_, ?_⟩
  · unfold entry?
    rw [look_up_plain (holds _ inFront).2 (Or.inr rfl), if_neg short, entry]
    rfl
  · exact demand_change_of_changeable (removable.changeable inFront (by simp [entry])) tree

theorem unlink_inside (isFile : node.isDirectory = false) :
    unlink path tree = .ok () (tree.update (base ++ front) (Node.dropEntry tree.clock name)) := by
  obtain ⟨place, stepped, named, looked, allowed⟩ := last_entry_inside grounds removable isThere
  obtain ⟨isName, _, ends⟩ := last_into removable.into
  have plain := ends_with_name isName ends
  unfold unlink
  rw [bind_of_ok stepped]
  dsimp only
  rw [bind_of_ok looked]
  dsimp only
  rw [if_neg plain, bind_of_ok allowed, isFile, ← named]
  rfl

theorem remove_directory_inside (isDirectory : node.isDirectory = true) :
    removeDirectory path tree =
      .ok () (tree.update (base ++ front) (Node.dropEntry tree.clock name)) := by
  obtain ⟨place, stepped, named, looked, allowed⟩ := last_entry_inside grounds removable isThere
  unfold removeDirectory
  rw [bind_of_ok stepped]
  dsimp only
  rw [bind_of_ok looked]
  dsimp only
  rw [bind_of_ok allowed, isDirectory, ← named]
  rfl

/-- A directory is cleared first, and then its entry is dropped. -/
theorem remove_all_inside (isDirectory : node.isDirectory = true) (owned : node.Owned)
    (avoids : Avoids way left base (base ++ (front ++ [name])) tree.root) :
    removeAll path tree =
      .ok () (tree.update (base ++ front) (Node.dropEntry tree.clock name)) := by
  have tidy := (Node.tidy_at grounds.tidy isThere).2
  have named := link_metadata_inside grounds removable.into removable.fits removable.unbarred
  rw [isThere] at named
  obtain ⟨place, located, isPlace, rfl⟩ :=
    locate_directory grounds removable.into removable.fits
    removable.unbarred isThere isDirectory
  obtain ⟨goesOn, holds⟩ := Node.clear_owned tidy owned tree.clock
  obtain ⟨_, stillDirectory, stillTidy⟩ := holds isDirectory
  -- The directory is still there once it has been cleared, and so is everything beside it.
  generalize emptied : (place.node.clear tree.clock).1 = empty at stillDirectory stillTidy
  have cleared : place.node.clear tree.clock = (empty, false) := Prod.ext emptied goesOn
  have groundsBetween : Grounds way left base
      (tree.update (base ++ (front ++ [name])) fun _ => empty)
      (ground.update (fun _ => empty) (front ++ [name])) :=
    grounds.altered (avoids _ fun _ => Node.remains_elsewhere)
      (Node.directory_of_remains (Node.remains_elsewhere (by simp)) grounds.isDirectory)
      fun _ _ => stillTidy
  have dropped := remove_directory_inside groundsBetween (removable.changed isThere _)
    (Node.at?_update isThere) stillDirectory
  have roots := Node.drop_after_change tree.root tree.clock (base ++ front) name fun _ => empty
  have same : (tree.update (base ++ (front ++ [name])) fun _ => empty).update (base ++ front)
      (Node.dropEntry tree.clock name) =
        tree.update (base ++ front) (Node.dropEntry tree.clock name) := by
    rw [List.append_assoc] at roots
    exact congrArg (fun root => FileTree.mk root tree.clock) roots
  have got : (get : Disk FileTree) tree = .ok tree tree := rfl
  have changed : change place (fun _ => empty) tree =
      .ok () (tree.update (base ++ (front ++ [name])) fun _ => empty) := by
    rw [← isPlace]
    rfl
  obtain ⟨modified, isNode⟩ := Node.eq_directory isDirectory
  unfold removeAll
  rw [bind_of_ok named, isNode]
  dsimp only
  rw [bind_of_ok located, bind_of_ok got, cleared]
  dsimp only
  rw [bind_of_ok changed]
  refine (congrFun (if_neg Bool.false_ne_true) _).trans ?_
  rw [dropped]
  exact congrArg (EStateM.Result.ok ()) same

end Dropping

end Disk

namespace DiskResources

section Deleting

variable {way : List DiskPath.Step} {left : Nat} {base front : List String} {storage : Storage}
  {ground node : Node} {name path : String}

theorem at_path_of_ok {α : Type} {calls : Disk α} {value : α} {disk : FileTree}
    (ran : calls storage.disk = .ok value disk) (path : String) :
    Access.atPath path calls storage = .ok value { storage with disk := disk } := by
  unfold Access.atPath Access.onDisk
  rw [ran]

variable (grounds : Grounds way left base storage.disk ground)
  (removable : Disk.Removable path front name way ground)
include grounds removable

theorem delete_missing (isMissing : ground.at? (front ++ [name]) = none) :
    deleteObject path storage = .ok () storage := by
  have asked := Disk.link_metadata_inside grounds removable.into removable.fits removable.unbarred
  rw [isMissing] at asked
  have failed : Access.existingAt path (Disk.linkMetadata path) storage =
      .error (.notFound path) storage := by
    unfold Access.existingAt Access.onDisk
    rw [asked]
    rfl
  unfold deleteObject
  rw [failed]

theorem delete_there (isThere : ground.at? (front ++ [name]) = some node) (owned : node.Owned)
    (avoids : Avoids way left base (base ++ (front ++ [name])) storage.disk.root) :
    deleteObject path storage = .ok () { storage with
      disk := storage.disk.update (base ++ front) (Node.dropEntry storage.disk.clock name) } := by
  have asked := Disk.link_metadata_inside grounds removable.into removable.fits removable.unbarred
  rw [isThere] at asked
  have found : Access.existingAt path (Disk.linkMetadata path) storage = .ok node storage := by
    unfold Access.existingAt Access.onDisk
    rw [asked]
  unfold deleteObject
  rw [found]
  dsimp only
  cases isDirectory : node.isDirectory with
  | true =>
      have removed := Disk.remove_all_inside grounds removable isThere isDirectory owned avoids
      exact at_path_of_ok removed path
  | false =>
      have removed := Disk.unlink_inside grounds removable isThere isDirectory
      exact at_path_of_ok removed path

/-- A deletion inside succeeds, and only what stands at and below the names goes. -/
theorem delete_inside
    (owned : ∀ {node}, ground.at? (front ++ [name]) = some node → node.Owned)
    (avoids : Avoids way left base (base ++ (front ++ [name])) storage.disk.root) :
    ∃ after later, deleteObject path storage = .ok () after ∧
      Grounds way left base after.disk later ∧ Node.Removed (front ++ [name]) ground later ∧
      storage.disk.root.Spared (base ++ (front ++ [name])) after.disk.root := by
  cases isThere : ground.at? (front ++ [name]) with
  | none =>
      refine ⟨storage, ground, delete_missing grounds removable isThere, grounds,
        ⟨?_, ?_⟩, ?_⟩
      · intro deeper
        rw [Node.at?_append, isThere, Option.bind_none]
      · exact Node.spared_itself _ ground
      · exact Node.spared_itself _ storage.disk.root
  | some node =>
      obtain ⟨directory, inFront, _⟩ := Option.bind_eq_some_iff.mp
        ((Node.at?_append _ _ _).symm.trans isThere)
      obtain ⟨isDirectory, _⟩ := (removable.unbarred front name [] rfl).2 directory inFront
      have atRoot : storage.disk.root.at? (base ++ front) = some directory := by
        rw [Node.at?_append, grounds.stands, Option.bind_some, inFront]
      have whole := Node.removed_drop_entry atRoot isDirectory storage.disk.clock name
      rw [List.append_assoc] at whole
      have removed := Node.removed_drop_entry inFront isDirectory storage.disk.clock name
      refine ⟨_, _, delete_there grounds removable isThere (owned isThere) avoids,
        grounds.altered (avoids _ whole.spared) ?_ ?_, removed, whole.spared⟩
      · exact Node.directory_of_remains (removed.spared [] (by simp)) grounds.isDirectory
      · exact fun node tidy => Node.tidy_drop_entry tidy storage.disk.clock name

end Deleting

end DiskResources

end StorageScenario
