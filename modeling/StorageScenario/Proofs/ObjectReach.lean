import StorageScenario.Proofs.AtomicCalls
import StorageScenario.Proofs.ContainerReach

/-!
How far the calls on an object reach, however they end. On disk they may make directories that
are missing, but in a tree without links they alter nothing that is there except at and below the
names that the path of the object leads to by its text.
-/

namespace StorageScenario

open DiskPath ObjectPath FileTree Work

namespace Disk

/-- The tree is still without links, and of what stood in the original only what is at and below
these names may have been altered. -/
structure Reached (names : List String) (origin : Node) (tree : FileTree) : Prop where
  tidy : tree.root.Tidy
  kept : origin.KeptBeside names tree.root

section Reaching

variable {names : List String} {origin : Node} {tree after : FileTree}

theorem reached_itself (names : List String) (plain : tree.root.Tidy) :
    Reached names tree.root tree :=
  ⟨plain, (Node.kept_in_itself _).beside⟩

theorem reached_update (reached : Reached names origin tree) {change : Node → Node}
    (tidy : ∀ node : Node, node.Tidy → (change node).Tidy) :
    Reached names origin (tree.update names change) where
  tidy := Node.tidy_update tidy reached.tidy names
  kept := reached.kept.trans (Node.Spared.beside fun _ => Node.remains_elsewhere)

theorem make_directory_tidy (path : String) :
    Keeps (fun tree => tree.root.Tidy) (makeDirectory path) := by
  intro tree plain
  let kept := fun after : FileTree => after.root.Tidy
  refine (last_step_looks path).bind_left kept plain fun found stepped => ?_
  match found with
  | none | some (_, .here) | some (_, .up) | some (_, .asFolder) => exact plain
  | some (directory, .down name) =>
      refine (entry_looks directory name).bind_left kept plain fun entry looked => ?_
      cases entry with
      | some node => exact plain
      | none =>
          have isName : IsName name := by
            apply names_are_names path
            rw [← names_of_last_step plain stepped]
            simp
          refine get_looks.bind_left kept plain fun _ _ => ?_
          refine (demand_change_looks _).bind_left kept plain fun _ _ => ?_
          refine get_looks.bind_left kept plain fun _ _ => ?_
          have empty : ∀ mode modified, (Node.directory mode modified []).Tidy :=
            fun _ _ => .directory (by simp) (by simp) (by simp)
          exact Node.tidy_update (fun _ tidy => Node.tidy_put_entry tidy (empty _ _) isName _) plain
            directory.names

theorem make_directories_reach (path : String) :
    Keeps (Reached names origin) (makeDirectories path) := by
  intro tree reached
  have kept := make_lineage_keeps (make_directory_keeps tree.root) (lineage path) tree
    (Node.kept_in_itself _)
  exact ⟨make_lineage_keeps make_directory_tidy (lineage path) tree reached.tidy,
    reached.kept.trans kept.beside⟩

theorem names_of_spot (plain : tree.root.Tidy) {path : String} {aim : Aim} {found : Spot}
    (ran : spot path aim tree = .ok found after) : found.names = ObjectPath.names path :=
  (walk_by_text plain .root (spot_ok ran)).trans (take_route path)

theorem write_file_reaches (path : String) (content : Bytes) :
    Keeps (Reached (ObjectPath.names path) origin) (writeFile path content) := by
  intro tree reached
  let kept := Reached (ObjectPath.names path) origin
  refine get_looks.bind_left kept reached fun _ _ => ?_
  refine (spot_looks path .writing).bind_left kept reached fun found looked => ?_
  have named := names_of_spot reached.tidy looked
  have sits := walk_sits .root (spot_ok looked)
  cases found with
  | vacant directory name =>
      have isName : IsName name := by
        apply names_are_names path
        rw [← named]
        simp [Spot.names]
      refine (demand_change_looks _).bind_left kept reached fun _ _ => ?_
      refine get_looks.bind_left kept reached fun _ _ => ?_
      refine ⟨?_, reached.kept.trans ?_⟩
      · exact Node.tidy_update
          (fun _ tidy => Node.tidy_put_entry tidy (.file _ _ _) isName _) reached.tidy
          directory.names
      · rw [← named]
        exact Node.kept_beside_update (Place.sits_at sits) (Node.kept_beside_put_entry _ _ _ _)
  | found place =>
      obtain ⟨node, above⟩ := place
      cases node with
      | directory _ _ _ => exact reached
      | link _ _ => exact reached
      | file mode modified old =>
          refine (demand_looks _ _).bind_left kept reached fun _ _ => ?_
          change Reached (ObjectPath.names path) origin _
          rw [← named] at reached ⊢
          exact reached_update reached fun _ _ => .file _ _ _

theorem set_mode_reaches (path : String) (mode : UInt32) :
    Keeps (Reached (ObjectPath.names path) origin) (setMode path mode) := by
  intro tree reached
  refine (locate_looks path .target).bind_left (Reached _ origin) reached fun place located => ?_
  rw [← names_of_locate reached.tidy located] at reached ⊢
  exact reached_update reached fun _ tidy => Node.tidy_with_mode tidy

end Reaching

theorem unlink_spares {tree : FileTree} (plain : tree.root.Tidy) (path : String) :
    Node.Spared (ObjectPath.names path) tree.root (left (unlink path) tree).root := by
  have start : Node.Spared (ObjectPath.names path) tree.root tree.root := Node.spared_itself _ _
  let kept := fun after : FileTree => Node.Spared (ObjectPath.names path) tree.root after.root
  refine (last_step_looks path).bind_left kept start fun found stepped => ?_
  match found with
  | none | some (_, .here) | some (_, .up) | some (_, .asFolder) => exact start
  | some (directory, .down name) =>
      refine (entry_looks directory name).bind_left kept start fun entry looked => ?_
      cases entry with
      | none => exact start
      | some node =>
          dsimp only
          split
          · exact start
          · refine (demand_change_looks _).bind_left kept start fun _ _ => ?_
            split
            · exact start
            · have stands := Place.sits_at (sits_of_last_step stepped)
              have isDirectory := Node.directory_of_entry (entry_ok looked).1.symm
              have removed := Node.removed_drop_entry stands isDirectory tree.clock name
              rw [names_of_last_step plain stepped] at removed
              exact removed.spared

theorem directory_node_looks (path : String) : Looks (directoryNode path) := by
  refine bind_looks (metadata_looks path) fun node => ?_
  split
  · exact bind_looks (demand_looks node .read) fun _ => pure_looks node
  · exact throw_looks _

end Disk

namespace DiskResources

open Disk

section Reaching

variable {origin : Node} {storage : Storage} (path : String)

abbrev ReachedOnDisk (names : List String) (origin : Node) (storage : Storage) : Prop :=
  Reached names origin storage.disk

theorem apply_mode_reaches (properties : ObjectProperties) :
    Keeps (ReachedOnDisk (ObjectPath.names path) origin) (applyMode path properties) := by
  unfold applyMode
  cases properties.nfs.fileMode with
  | none => exact pure_keeps ()
  | some mode => exact Access.on_disk_keeps _ (set_mode_reaches path mode)

theorem create_folder_reaches (properties : ObjectProperties) :
    Keeps (ReachedOnDisk (ObjectPath.names path) origin) (createFolder path properties) :=
  bind_keeps (Access.on_disk_keeps _ (make_directories_reach path)) fun _ =>
    apply_mode_reaches path properties

theorem create_file_reaches (body : Body) (properties : ObjectProperties) :
    Keeps (ReachedOnDisk (ObjectPath.names path) origin) (createFile path body properties) := by
  have written : Keeps (ReachedOnDisk (ObjectPath.names path) origin)
      (Access.atPath path (Disk.writeFile path body.yielded)) :=
    Access.on_disk_keeps _ (write_file_reaches path body.yielded)
  unfold createFile
  cases parent? path with
  | none =>
      refine bind_keeps written fun _ => ?_
      split
      · exact fun _ reached => reached
      · exact apply_mode_reaches path properties
  | some parent =>
      refine bind_keeps (Access.on_disk_keeps _ (make_directories_reach parent)) fun _ => ?_
      refine bind_keeps written fun _ => ?_
      split
      · exact fun _ reached => reached
      · exact apply_mode_reaches path properties

theorem delete_object_spares (plain : storage.disk.root.Tidy) :
    Node.Spared (ObjectPath.names path) storage.disk.root
      (left (deleteObject path) storage).disk.root := by
  rcases left_of_delete_object path storage with same | same | same
  · rw [same]
    exact Node.spared_itself _ _
  · rw [same, Access.atPath, Access.on_disk_disk]
    exact remove_all_spares plain path
  · rw [same, Access.atPath, Access.on_disk_disk]
    exact unlink_spares plain path

theorem scan_looks (recursive : Bool) : Looks (scan path recursive) := by
  refine bind_looks (Access.on_disk_looks _ (is_present_looks path)) fun present => ?_
  split
  · refine bind_looks (Access.on_disk_looks _ (directory_node_looks path)) fun directory => ?_
    split
    · exact throw_looks _
    · exact pure_looks _
  · exact pure_looks _

end Reaching

end DiskResources

section Calls

variable {object : ObjectHandle} {root : String} (onDisk : object.container.service = .disk root)
include onDisk

theorem ObjectHandle.create_reaches_on_disk {origin : Node} (body : Body)
    (properties : ObjectProperties) :
    Keeps (DiskResources.ReachedOnDisk (ObjectPath.names object.uri) origin)
      (object.create body properties) := by
  unfold ObjectHandle.create
  rw [onDisk]
  dsimp only
  split
  · exact DiskResources.create_folder_reaches object.uri properties
  · exact DiskResources.create_file_reaches object.uri body properties

theorem ObjectHandle.set_properties_reaches_on_disk {origin : Node}
    (properties : ObjectProperties) :
    Keeps (DiskResources.ReachedOnDisk (ObjectPath.names object.uri) origin)
      (object.setProperties properties) := by
  unfold ObjectHandle.setProperties
  rw [onDisk]
  refine bind_keeps (object.is_present_looks.keeps _) fun present => ?_
  cases present with
  | true => exact DiskResources.apply_mode_reaches object.uri properties
  | false => exact fun _ reached => reached

theorem ObjectHandle.delete_spares_on_disk {storage : Storage}
    (plain : storage.disk.root.Tidy) :
    Node.Spared (ObjectPath.names object.uri) storage.disk.root
      (left object.delete storage).disk.root := by
  unfold ObjectHandle.delete
  rw [onDisk]
  dsimp only
  split
  · exact Node.spared_itself _ _
  · exact DiskResources.delete_object_spares object.uri plain

theorem ObjectHandle.children_looks_on_disk (recursive : Bool) :
    Looks (object.children recursive) := by
  unfold ObjectHandle.children
  rw [onDisk]
  exact DiskResources.scan_looks object.uri recursive

/-- However a call on an object on disk ends, in a tree without links it has altered nothing of
what was there but at and below the names of the object's path. -/
theorem ObjectCall.run_kept_beside (call : ObjectCall) {storage : Storage}
    (plain : storage.disk.root.Tidy) :
    storage.disk.root.KeptBeside (ObjectPath.names object.uri)
      (left (call.run object) storage).disk.root := by
  have start : DiskResources.ReachedOnDisk (ObjectPath.names object.uri) storage.disk.root
      storage := Disk.reached_itself _ plain
  cases call with
  | isPresent => exact (object.is_present_looks.keeps _ storage start).kept
  | create body properties =>
      exact (ObjectHandle.create_reaches_on_disk onDisk body properties storage start).kept
  | delete => exact (ObjectHandle.delete_spares_on_disk onDisk plain).beside
  | readProperties => exact (object.properties_looks.keeps _ storage start).kept
  | setProperties properties =>
      exact (ObjectHandle.set_properties_reaches_on_disk onDisk properties storage start).kept
  | children recursive =>
      exact ((ObjectHandle.children_looks_on_disk onDisk recursive).keeps _ storage start).kept
  | download => exact (object.download_looks.keeps _ storage start).kept

end Calls

end StorageScenario
