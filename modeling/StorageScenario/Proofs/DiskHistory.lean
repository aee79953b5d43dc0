import StorageScenario.Proofs.CleanupRun
import StorageScenario.Proofs.CreationCalls
import StorageScenario.Proofs.DirectoryHistory
import StorageScenario.Proofs.DirectoryRemoval

/-!
Creations and cleanups in a container on disk. Creations that succeed make the paths of their
objects and bar none of them, and after that each of these paths can be removed, in any order.
Neither loses the way to the container, as all that goes was not there at first.
-/

namespace StorageScenario

open DiskPath ObjectPath FileTree Work

namespace Creation

def objectCall (container : ContainerHandle) (entry : String × ObjectDefinition) : Call :=
  .object (container.object entry.1 entry.2.properties.kind) (entry.2.body.getD (.zeros 0))
    entry.2.properties

def wantedObjects (definition : ContainerDefinition) : List (String × ObjectDefinition) :=
  if definition.isWanted then
    definition.objects.flatten.entries.filter fun entry => entry.2.isWanted
  else []

theorem container_plan_eq {container : ContainerHandle} {definition : ContainerDefinition}
    (isWanted : definition.isWanted = true) :
    containerPlan container definition =
      .container container definition.properties ::
        (wantedObjects definition).map (objectCall container) := by
  unfold containerPlan wantedObjects
  rw [if_pos isWanted, if_pos isWanted]
  congr 1
  induction definition.objects.flatten.entries with
  | nil => rfl
  | cons entry rest ih =>
      rw [List.flatMap_cons, ih]
      unfold objectPlan
      cases wanted : entry.2.isWanted <;> simp [wanted, objectCall]

end Creation

section Histories

variable {root container : String} {left : Nat} {base : List String} {tree : FileTree}
  {storage after : Storage} {origin now : Node} {made : List (List String)}

open Creation Node

theorem open_container_inside {path : String} {isNew : Bool}
    (grounds : Grounds (steps path) left base storage.disk now) (nonempty : path ≠ "")
    (ran : DiskResources.createContainer path storage = .ok isNew after) :
    isNew = false ∧ after = storage := by
  obtain ⟨present, between, asked, makes⟩ := bind_ok_iff.mp ran
  cases (DiskResources.container_is_present_looks path).of_ok asked
  cases container_is_present_inside grounds nonempty asked
  obtain ⟨_, later, made, returned⟩ := bind_ok_iff.mp makes
  cases DiskResources.make_directories_there grounds.leads made
  cases returned
  exact ⟨rfl, rfl⟩

theorem make_objects_inside (entries : List (String × ObjectDefinition))
    (free : ∀ entry ∈ entries, origin.at? (ObjectPath.names entry.1) = none)
    (granted : ∀ entry ∈ entries, entry.2.properties.kind = .folder →
      ∀ mode, entry.2.properties.nfs.fileMode = some mode → GrantsAll mode)
    (grows : Grows (steps (DiskPath.join root container)) left base tree storage.disk now)
    (grown : Grown origin now made) (passable : ∀ path ∈ made, now.Passable path)
    {tracked : List Resource}
    (ran : makeAll (entries.map (objectCall ⟨.disk root, container⟩)) storage =
      .ok tracked after) :
    tracked = entries.map (fun entry => (objectCall ⟨.disk root, container⟩ entry).resource) ∧
    (∀ entry ∈ entries,
      Disk.PathFits (objectCall ⟨.disk root, container⟩ entry).resource.uri) ∧
    ∃ later, Grows (steps (DiskPath.join root container)) left base tree after.disk later ∧
      Grown origin later (made ++ entries.map fun entry => ObjectPath.names entry.1) ∧
      ∀ path ∈ made ++ entries.map (fun entry => ObjectPath.names entry.1),
        later.Passable path := by
  induction entries generalizing storage now made tracked with
  | nil =>
      cases ran
      exact ⟨rfl, by simp, now, grows, by simpa using grown, by simpa using passable⟩
  | cons entry rest ih =>
      have isFree := free entry List.mem_cons_self
      have nonempty : ObjectPath.names entry.1 ≠ [] := by
        intro atRoot
        rw [atRoot] at isFree
        cases isFree
      obtain ⟨isNew, between, ranCall, ranRest⟩ := bind_ok_iff.mp ran
      obtain ⟨_, _, creates, returned⟩ := bind_ok_iff.mp ranCall
      cases returned
      obtain ⟨others, _, ranOthers, returned⟩ := bind_ok_iff.mp ranRest
      cases returned
      obtain ⟨middle, growsHere, atRoot | ⟨_, created, fits, _⟩⟩ :=
        create_on_disk grows.toGrounds
          (fun mode given => ⟨nonempty, fun folder =>
            granted entry List.mem_cons_self folder mode given⟩) creates
      · exact absurd atRoot.1 nonempty
      · have passableHere : ∀ path ∈ made ++ [ObjectPath.names entry.1],
            middle.Passable path := by
          intro path member
          rcases List.mem_append.mp member with before | isLast
          · exact (passable path before).stays created.stays
          · cases List.mem_singleton.mp isLast
            exact created.passable
        obtain ⟨rfl, fitsRest, further⟩ := ih
          (fun other member => free other (List.mem_cons_of_mem _ member))
          (fun other member => granted other (List.mem_cons_of_mem _ member))
          (grows.trans growsHere) (grown.created created isFree) passableHere ranOthers
        rw [List.append_assoc] at further
        exact ⟨rfl, List.forall_mem_cons.mpr ⟨fits, fitsRest⟩, further⟩

/-- A path that was free at first is removed, whatever stands there by now. -/
theorem delete_object_inside {path : String} {kind : EntityKind}
    (start : Grounds (steps (DiskPath.join root container)) left base tree origin)
    (grows : Grows (steps (DiskPath.join root container)) left base tree storage.disk now)
    (grown : Grown origin now made) (isFree : origin.at? (ObjectPath.names path) = none)
    (unbarred : now.Unbarred (ObjectPath.names path))
    (fits : Disk.PathFits (ContainerHandle.object ⟨.disk root, container⟩ path kind).uri) :
    ∃ after later,
      (ContainerHandle.object ⟨.disk root, container⟩ path kind).delete storage =
        .ok () after ∧
      Grows (steps (DiskPath.join root container)) left base tree after.disk later ∧
      Removed (ObjectPath.names path) now later := by
  have nonempty : ObjectPath.names path ≠ [] := by
    intro atRoot
    rw [atRoot] at isFree
    cases isFree
  have below : clean path ≠ "" := mt (clean_eq_empty_iff path).mp nonempty
  have deletes : (ContainerHandle.object ⟨.disk root, container⟩ path kind).delete storage =
      DiskResources.deleteObject
        (ContainerHandle.object ⟨.disk root, container⟩ path kind).uri storage := by
    unfold ObjectHandle.delete ObjectHandle.isRoot ContainerHandle.object
    simp [below]
  have into := object_goes_into root container path kind
  obtain ⟨front, name, split⟩ := (ObjectPath.names path).eq_nil_or_concat'.resolve_left nonempty
  rw [split] at into unbarred isFree ⊢
  have removable : Disk.Removable
      (ContainerHandle.object ⟨.disk root, container⟩ path kind).uri front name
      (steps (DiskPath.join root container)) now := by
    refine ⟨into, fits, unbarred, ?_⟩
    intro directory inFront present
    obtain ⟨node, entry⟩ := Option.ne_none_iff_exists'.mp present
    obtain ⟨other, isOther, changeable⟩ :=
      grown.opened isFree ((at?_snoc inFront name).trans entry)
    cases isOther.symm.trans inFront
    exact changeable
  have freeInTree : tree.root.at? (base ++ (front ++ [name])) = none := by
    rw [at?_append, start.stands, Option.bind_some, isFree]
  obtain ⟨after, later, ran, groundsAfter, removed, elsewhere⟩ :=
    DiskResources.delete_inside grows.toGrounds removable (grown.owned_below isFree)
      (avoids_of_stays start.leads grows.stays freeInTree)
  exact ⟨after, later, deletes.trans ran,
    ⟨groundsAfter, grows.stays.apart freeInTree elsewhere⟩, removed⟩

theorem delete_objects_inside (objects : List (String × EntityKind))
    (start : Grounds (steps (DiskPath.join root container)) left base tree origin)
    (grows : Grows (steps (DiskPath.join root container)) left base tree storage.disk now)
    (grown : Grown origin now made)
    (ready : ∀ object ∈ objects, origin.at? (ObjectPath.names object.1) = none ∧
      now.Unbarred (ObjectPath.names object.1) ∧
      Disk.PathFits (ContainerHandle.object ⟨.disk root, container⟩ object.1 object.2).uri) :
    ∃ after later,
      (objects.map fun object => Resource.object
        (ContainerHandle.object ⟨.disk root, container⟩ object.1 object.2)).forM Resource.delete
          storage = .ok () after ∧
      Grows (steps (DiskPath.join root container)) left base tree after.disk later ∧
      Grown origin later made ∧
      Cleared (objects.map fun object => ObjectPath.names object.1) now later := by
  induction objects generalizing storage now with
  | nil => exact ⟨storage, now, rfl, grows, grown, cleared_nothing now⟩
  | cons object rest ih =>
      obtain ⟨isFree, unbarred, fits⟩ := ready object List.mem_cons_self
      obtain ⟨between, middle, ran, growsHere, removed⟩ :=
        delete_object_inside start grows grown isFree unbarred fits
      have readyRest : ∀ other ∈ rest, origin.at? (ObjectPath.names other.1) = none ∧
          middle.Unbarred (ObjectPath.names other.1) ∧
          Disk.PathFits
            (ContainerHandle.object ⟨.disk root, container⟩ other.1 other.2).uri := by
        intro other member
        obtain ⟨freeOther, unbarredOther, fitsOther⟩ :=
          ready other (List.mem_cons_of_mem _ member)
        exact ⟨freeOther, unbarredOther.removed removed, fitsOther⟩
      obtain ⟨after, later, ranRest, growsAfter, grownAfter, cleared⟩ :=
        ih growsHere (grown.removed removed isFree) readyRest
      exact ⟨after, later, bind_ok_iff.mpr ⟨(), between, ran, ranRest⟩, growsAfter,
        grownAfter, removed.clears cleared⟩

end Histories

end StorageScenario
