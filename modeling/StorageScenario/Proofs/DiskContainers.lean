import StorageScenario.Proofs.DirectoryModes
import StorageScenario.Proofs.DiskListing

/-!
A container on disk, seen from its objects. What a creation makes stands under the names of
its path in the directory of the container, and what is there and what is listed is read off
that directory. The root folder is the directory itself.
-/

namespace StorageScenario

open DiskPath ObjectPath FileTree Work

namespace DiskResources

section Creating

variable {way : List DiskPath.Step} {left : Nat} {base names : List String} {name path : String}
  {storage after : Storage} {ground : Node} {properties : ObjectProperties}

theorem apply_no_mode (noMode : properties.nfs.fileMode = none)
    (ran : applyMode path properties storage = .ok () after) : after = storage := by
  unfold applyMode at ran
  rw [noMode] at ran
  cases ran
  rfl

theorem make_directories_there {goal : List String}
    (leads : Leads storage.disk.root linkLimit [] (steps path) left goal)
    (ran : Access.atPath path (Disk.makeDirectories path) storage = .ok () after) :
    after = storage := by
  obtain ⟨disk, makes, rfl⟩ := at_path_ok ran
  obtain ⟨above, isFirst⟩ := Disk.ancestors_head (pieces path).length path
  unfold Disk.makeDirectories lineage at makes
  rw [isFirst] at makes
  rw [Disk.make_lineage_there leads makes]

theorem create_root_folder {goal : List String}
    (leads : Leads storage.disk.root linkLimit [] (steps path) left goal)
    (noMode : properties.nfs.fileMode = none)
    (ran : createFolder path properties storage = .ok () after) : after = storage := by
  obtain ⟨_, between, made, applied⟩ := bind_ok_iff.mp ran
  cases apply_no_mode noMode applied
  exact make_directories_there leads made

theorem apply_mode_inside {kind : EntityKind} {tree : FileTree} {before : Node}
    (grows : Grows way left base tree storage.disk ground) (into : GoesInto way names path)
    (created : Node.Created names kind before ground)
    (granted : kind = .folder → ∀ mode, properties.nfs.fileMode = some mode → GrantsAll mode)
    (ran : applyMode path properties storage = .ok () after) :
    ∃ later, Grows way left base tree after.disk later ∧
      Node.Created names kind before later := by
  cases given : properties.nfs.fileMode with
  | none =>
      cases apply_no_mode given ran
      exact ⟨ground, grows, created⟩
  | some mode =>
      unfold applyMode at ran
      rw [given] at ran
      obtain ⟨disk, sets, rfl⟩ := at_path_ok ran
      obtain ⟨later, growsOn, withMode⟩ := Disk.mode_after_creation grows.toGrounds into created
        (fun isFolder => granted isFolder mode given) sets
      exact ⟨later, grows.trans growsOn, withMode⟩

theorem create_folder_inside (grounds : Grounds way left base storage.disk ground)
    (into : GoesInto way (names ++ [name]) path)
    (granted : ∀ mode, properties.nfs.fileMode = some mode → GrantsAll mode)
    (ran : createFolder path properties storage = .ok () after) :
    (∃ later, Grows way left base storage.disk after.disk later ∧
      Node.Created (names ++ [name]) .folder ground later) ∧ Disk.PathFits path := by
  obtain ⟨_, between, made, applied⟩ := bind_ok_iff.mp ran
  obtain ⟨disk, makes, rfl⟩ := at_path_ok made
  obtain ⟨middle, grows, made⟩ := Disk.make_lineage_inside grounds into makes
  obtain ⟨above, isFirst⟩ := Disk.ancestors_head (pieces path).length path
  unfold Disk.makeDirectories lineage at makes
  rw [isFirst] at makes
  exact ⟨apply_mode_inside grows into made.toCreated (fun _ => granted) applied,
    Disk.fits_of_make_lineage makes⟩

theorem create_file_inside (grounds : Grounds way left base storage.disk ground)
    (into : GoesInto way (names ++ [name]) path) {body : Body}
    (ran : createFile path body properties storage = .ok () after) :
    (∃ later, Grows way left base storage.disk after.disk later ∧
      Node.Created (names ++ [name]) .file ground later) ∧ Disk.PathFits path ∧
        body.failure? = none := by
  obtain ⟨parent, isParent, _⟩ := parent_into into
  unfold createFile at ran
  rw [isParent] at ran
  obtain ⟨_, between, made, wrote⟩ := bind_ok_iff.mp ran
  obtain ⟨_, later, written, finished⟩ := bind_ok_iff.mp wrote
  obtain ⟨disk, makes, rfl⟩ := at_path_ok made
  obtain ⟨_, writes, rfl⟩ := at_path_ok written
  cases failure : body.failure? with
  | some cause =>
      rw [failure] at finished
      cases finished
  | none =>
      rw [failure] at finished
      obtain ⟨middle, grows, above⟩ := Disk.make_parents_inside grounds into isParent
        (fun _ intoParent => Disk.make_lineage_inside grounds intoParent makes) makes
      obtain ⟨later, growsOn, made⟩ := Disk.write_file_inside grows.toGrounds into writes
      have whole := Node.made_further above made
      exact ⟨apply_mode_inside (grows.trans growsOn) into whole.toCreated (fun no => nomatch no)
        finished,
        Disk.fits_of_write_file writes, rfl⟩

end Creating

end DiskResources

section Objects

variable {root container : String} {left : Nat} {base : List String} {storage after : Storage}
  {ground : Node} {properties : ObjectProperties}

theorem create_eq (root container path : String) (kind : EntityKind) (body : Body)
    (properties : ObjectProperties) :
    (ContainerHandle.object ⟨.disk root, container⟩ path kind).create body properties =
      if clean path = "" then DiskResources.createFolder (DiskPath.join root container) properties
      else match kind with
        | .folder => DiskResources.createFolder
            (DiskPath.join (DiskPath.join root container) (clean path)) properties
        | .file => DiskResources.createFile
            (DiskPath.join (DiskPath.join root container) (clean path)) body properties := by
  unfold ObjectHandle.create ObjectHandle.uri ObjectHandle.isRoot
  by_cases atRoot : clean path = ""
  · simp [ContainerHandle.object, ContainerHandle.uri, atRoot]
  · cases kind <;> simp [ContainerHandle.object, ContainerHandle.uri, atRoot]

theorem object_uri (root container path : String) (kind : EntityKind) :
    (ContainerHandle.object ⟨.disk root, container⟩ path kind).uri =
      if clean path = "" then DiskPath.join root container
      else DiskPath.join (DiskPath.join root container) (clean path) := by
  unfold ObjectHandle.uri ObjectHandle.isRoot
  by_cases atRoot : clean path = "" <;>
    simp [ContainerHandle.object, ContainerHandle.uri, atRoot]

/-- A creation on disk that succeeds makes what it is to make, or keeps the root folder. -/
theorem create_on_disk
    (grounds : Grounds (steps (DiskPath.join root container)) left base storage.disk ground)
    {path : String} {kind : EntityKind} {body : Body}
    (granted : ∀ mode, properties.nfs.fileMode = some mode →
      ObjectPath.names path ≠ [] ∧ (kind = .folder → GrantsAll mode))
    (ran : (ContainerHandle.object ⟨.disk root, container⟩ path kind).create body properties
      storage = .ok () after) :
    ∃ later,
      Grows (steps (DiskPath.join root container)) left base storage.disk after.disk later ∧
      (ObjectPath.names path = [] ∧ later = ground ∨
        ObjectPath.names path ≠ [] ∧ Node.Created (ObjectPath.names path) kind ground later ∧
          Disk.PathFits (ContainerHandle.object ⟨.disk root, container⟩ path kind).uri ∧
          (kind = .file → body.failure? = none)) := by
  have isRoot := clean_eq_empty_iff path
  rw [create_eq] at ran
  rw [object_uri]
  by_cases atRoot : ObjectPath.names path = []
  · have noMode : properties.nfs.fileMode = none := by
      apply Option.eq_none_iff_forall_ne_some.mpr
      intro mode given
      exact (granted mode given).1 atRoot
    rw [if_pos (isRoot.mpr atRoot)] at ran
    refine ⟨ground, ?_, Or.inl ⟨atRoot, rfl⟩⟩
    rw [DiskResources.create_root_folder grounds.leads noMode ran]
    exact grounds.grow_nothing
  · rw [if_neg (mt isRoot.mp atRoot)] at ran ⊢
    rw [clean_eq_render] at ran ⊢
    have into := goes_into_join (DiskPath.join root container) (names_are_names path)
    obtain ⟨front, last, split⟩ :=
      (ObjectPath.names path).eq_nil_or_concat'.resolve_left atRoot
    rw [split] at into ran ⊢
    cases kind with
    | folder =>
        obtain ⟨⟨later, grows, created⟩, fits⟩ := DiskResources.create_folder_inside grounds
          into (fun mode given => (granted mode given).2 rfl) ran
        exact ⟨later, grows, Or.inr ⟨by simp, created, fits, fun no => nomatch no⟩⟩
    | file =>
        obtain ⟨⟨later, grows, created⟩, fits, readable⟩ :=
          DiskResources.create_file_inside grounds into ran
        exact ⟨later, grows, Or.inr ⟨by simp, created, fits, fun _ => readable⟩⟩

theorem object_goes_into (root container path : String) (kind : EntityKind) :
    GoesInto (steps (DiskPath.join root container)) (ObjectPath.names path)
      (ContainerHandle.object ⟨.disk root, container⟩ path kind).uri := by
  rw [object_uri]
  split
  · rename_i atRoot
    rw [(clean_eq_empty_iff path).mp atRoot]
    exact goes_into_itself _
  · rw [clean_eq_render]
    exact goes_into_join _ (names_are_names path)

theorem object_uri_ne_empty (nonempty : DiskPath.join root container ≠ "") (path : String)
    (kind : EntityKind) :
    (ContainerHandle.object ⟨.disk root, container⟩ path kind).uri ≠ "" := by
  rw [object_uri]
  split
  · exact nonempty
  · exact join_ne_empty nonempty _

theorem container_is_present_inside {path : String}
    (grounds : Grounds (steps path) left base storage.disk ground) (nonempty : path ≠ "")
    {present : Bool}
    (ran : DiskResources.containerIsPresent path storage = .ok present after) :
    present = true := by
  have into := goes_into_itself path
  obtain ⟨seen, between, asked, decided⟩ := bind_ok_iff.mp ran
  obtain ⟨disk, isPresent, rfl⟩ := DiskResources.at_path_ok asked
  have shown := Disk.is_present_inside grounds into nonempty isPresent
  rw [Node.at?_nil] at shown
  subst shown
  obtain ⟨_, isDirectory, _⟩ := DiskResources.at_path_ok decided
  rcases Disk.is_present_ok isPresent with ⟨node, read, _⟩ | ⟨_, impossible⟩
  · have stands := Disk.metadata_inside grounds into read
    rw [Node.at?_nil] at stands
    cases stands
    cases (Disk.metadata_looks path).of_ok read
    unfold Disk.isDirectory at isDirectory
    rw [read] at isDirectory
    cases isDirectory
    exact grounds.isDirectory
  · cases impossible

theorem object_is_present_inside
    (grounds : Grounds (steps (DiskPath.join root container)) left base storage.disk ground)
    (nonempty : DiskPath.join root container ≠ "") {path : String} {kind : EntityKind}
    {present : Bool} (ran : (ContainerHandle.object ⟨.disk root, container⟩ path kind).isPresent
      storage = .ok present after) :
    present = (ground.at? (ObjectPath.names path)).isSome := by
  have isRoot := clean_eq_empty_iff path
  have asked : (ContainerHandle.object ⟨.disk root, container⟩ path kind).isPresent =
      if clean path = "" then DiskResources.containerIsPresent (DiskPath.join root container)
      else Access.atPath (ContainerHandle.object ⟨.disk root, container⟩ path kind).uri
        (Disk.isPresent (ContainerHandle.object ⟨.disk root, container⟩ path kind).uri) := by
    unfold ObjectHandle.isPresent ObjectHandle.isRoot
    by_cases atRoot : clean path = "" <;>
      simp [ContainerHandle.object, ContainerHandle.isPresent, ContainerHandle.uri, atRoot]
  rw [asked] at ran
  split at ran
  · rename_i atRoot
    rw [isRoot.mp atRoot, Node.at?_nil]
    exact container_is_present_inside grounds nonempty ran
  · obtain ⟨disk, isPresent, _⟩ := DiskResources.at_path_ok ran
    exact Disk.is_present_inside grounds (object_goes_into root container path kind)
      (object_uri_ne_empty nonempty path kind) isPresent

end Objects

end StorageScenario
