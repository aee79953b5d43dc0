import StorageScenario.Proofs.EntryRemoval
import StorageScenario.Proofs.LexicalWalk

/-!
How far the creation and the deletion of a container reach, however they end. A creation alters
nothing that is there. In a tree without links a deletion alters nothing but what stands at and
below the names that the path of the container leads to by its text.
-/

namespace StorageScenario

open DiskPath ObjectPath FileTree Work

namespace Node

section Reach

variable {root node : Node} {names : List String}

theorem kept_beside_update (found : root.at? names = some node) {inner : List String}
    {change : Node → Node} (kept : KeptBeside inner node (change node)) :
    KeptBeside (names ++ inner) root (root.update change names) := by
  intro others held elsewhere isHeld
  by_cases inside : names <+: others
  · obtain ⟨deeper, rfl⟩ := inside
    rw [List.prefix_append_right_inj] at elsewhere
    rw [at?_append, found, Option.bind_some] at isHeld
    rw [at?_update_append found]
    exact kept deeper held elsewhere isHeld
  · exact later_of_remains (remains_elsewhere inside) isHeld

/-- An entry that is put into a directory may replace the one of its name, but no other. -/
theorem kept_beside_put_entry (now : Instant) (name : String) (child node : Node) :
    KeptBeside [name] node (putEntry now name child node) := by
  cases isDirectory : node.isDirectory with
  | true =>
      intro others held elsewhere isHeld
      cases others with
      | nil =>
          cases isHeld
          exact ⟨_, rfl, put_entry_unaltered isDirectory now name child⟩
      | cons other rest =>
          have apart : other ≠ name := by
            rintro rfl
            exact elsewhere ⟨rest, rfl⟩
          rw [at?_cons, put_entry_lookup isDirectory, if_neg apart]
          exact ⟨held, isHeld, .itself held⟩
  | false =>
      cases node with
      | directory _ _ _ => cases isDirectory
      | file _ _ _ => exact (kept_in_itself _).beside
      | link _ _ => exact (kept_in_itself _).beside

theorem clear_entries_left (now : Instant) (searchable writable : Bool)
    (entries : List (String × Node)) :
    ((clearEntries now searchable writable entries).1.map Prod.fst) <:+ entries.map Prod.fst ∧
      ∀ entry ∈ (clearEntries now searchable writable entries).1, ∃ before ∈ entries,
        entry = before ∨ entry = (before.1, (before.2.clear now).1) := by
  induction entries with
  | nil => exact ⟨List.suffix_rfl, by simp [clearEntries]⟩
  | cons head rest ih =>
      have others : ∀ entry ∈ rest, ∃ before ∈ head :: rest,
          entry = before ∨ entry = (before.1, (before.2.clear now).1) :=
        fun entry member => ⟨entry, List.mem_cons_of_mem _ member, Or.inl rfl⟩
      rw [clearEntries]
      split
      · dsimp only
        split
        · refine ⟨ih.1.trans (List.suffix_cons _ _), ?_⟩
          intro entry member
          obtain ⟨before, inRest, same⟩ := ih.2 entry member
          exact ⟨before, List.mem_cons_of_mem _ inRest, same⟩
        · refine ⟨List.suffix_rfl, ?_⟩
          intro entry member
          rcases List.mem_cons.mp member with rfl | inRest
          · exact ⟨head, List.mem_cons_self, Or.inr rfl⟩
          · exact others entry inRest
      · refine ⟨List.suffix_rfl, ?_⟩
        intro entry member
        exact ⟨entry, member, Or.inl rfl⟩

/-- What is left of a tree without links has none either. -/
theorem tidy_clear {node : Node} (tidy : node.Tidy) (now : Instant) : (node.clear now).1.Tidy := by
  induction tidy with
  | file mode modified content => exact .file mode modified content
  | @directory mode modified entries distinct proper tidy ih =>
      rw [clear]
      split
      · rename_i readable
        obtain ⟨keys, members⟩ := clear_entries_left now
          ((directory mode modified entries).allows .search)
          ((directory mode modified entries).allows .write) entries
        refine .directory (distinct.sublist keys.sublist) ?_ ?_
        · intro entry member
          obtain ⟨before, wasThere, rfl | rfl⟩ := members entry member
          · exact proper _ wasThere
          · exact proper before wasThere
        · intro entry member
          obtain ⟨before, wasThere, rfl | rfl⟩ := members entry member
          · exact tidy _ wasThere
          · exact ih before wasThere
      · exact .directory distinct proper tidy

end Reach

end Node

namespace Disk

theorem left_of_ignoring (calls : Disk Unit) (tree : FileTree) :
    left (fun tree =>
      match calls tree with
      | .error (.fault .notFound) after => .ok () after
      | result => result) tree = left calls tree := by
  unfold left
  dsimp only
  cases calls tree with
  | ok value after => rfl
  | error cause after =>
      cases cause with
      | fault fault => cases fault <;> rfl
      | nulInName => rfl
      | unreadableBody reason => rfl
      | invalidSeek => rfl

section Removal

variable {tree : FileTree} (plain : tree.root.Tidy)
include plain

theorem remove_directory_spares (path : String) :
    Node.Spared (ObjectPath.names path) tree.root (left (removeDirectory path) tree).root := by
  have start : Node.Spared (ObjectPath.names path) tree.root tree.root := Node.spared_itself _ _
  let kept := fun after : FileTree => Node.Spared (ObjectPath.names path) tree.root after.root
  refine (last_step_looks path).bind_left kept start fun found stepped => ?_
  match found with
  | none | some (_, .here) | some (_, .up) | some (_, .asFolder) => exact start
  | some (directory, .down name) =>
      refine (entry_looks directory name).bind_left kept start fun entry looked => ?_
      cases entry with
      | none => exact start
      | some node =>
          refine (demand_change_looks _).bind_left kept start fun _ _ => ?_
          split
          · have stands := Place.sits_at (sits_of_last_step stepped)
            have isDirectory := Node.directory_of_entry (entry_ok looked).1.symm
            have removed := Node.removed_drop_entry stands isDirectory tree.clock name
            rw [names_of_last_step plain stepped] at removed
            exact removed.spared
          · exact start

theorem remove_all_spares (path : String) :
    Node.Spared (ObjectPath.names path) tree.root (left (removeAll path) tree).root := by
  have start : Node.Spared (ObjectPath.names path) tree.root tree.root := Node.spared_itself _ _
  let kept := fun after : FileTree => Node.Spared (ObjectPath.names path) tree.root after.root
  refine (link_metadata_looks path).bind_left kept start fun node found => ?_
  cases node with
  | file _ _ _ => exact start
  | link modified target =>
      obtain ⟨place, _, located, returned⟩ := bind_ok_iff.mp found
      injection returned with isLink
      have tidy := (Node.tidy_at plain (Place.sits_at (sits_of_locate located))).2
      rw [isLink] at tidy
      cases tidy
  | directory _ _ _ =>
      refine (locate_looks path .target).bind_left kept start
        fun place located => ?_
      have tidy := (Node.tidy_at plain (Place.sits_at (sits_of_locate located))).2
      have rest := Node.tidy_clear tidy tree.clock
      refine get_looks.bind_left kept start fun _ got => ?_
      cases got
      generalize place.node.clear tree.clock = cleared at rest
      obtain ⟨remainder, stopped⟩ := cleared
      let between := tree.update place.names fun _ => remainder
      have cleared : Node.Spared (ObjectPath.names path) tree.root between.root := by
        rw [← names_of_locate plain located]
        exact fun _ => Node.remains_elsewhere
      have plainBetween : between.root.Tidy := Node.tidy_update (fun _ _ => rest) plain place.names
      have goesOn := cleared.trans (remove_directory_spares plainBetween path)
      have changed : change place (fun _ => remainder) tree = .ok () between := rfl
      cases stopped with
      | true =>
          rw [left_of_same (bind_of_ok changed)]
          exact cleared
      | false =>
          rw [left_of_same (bind_of_ok changed)]
          rw [← left_of_ignoring (removeDirectory path) between] at goesOn
          exact goesOn

end Removal

section Creation

theorem make_directory_keeps (origin : Node) (path : String) :
    Keeps (fun tree => origin.KeptIn tree.root) (makeDirectory path) := by
  intro tree start
  let kept := fun after : FileTree => origin.KeptIn after.root
  refine (last_step_looks path).bind_left kept start fun found stepped => ?_
  match found with
  | none | some (_, .here) | some (_, .up) | some (_, .asFolder) => exact start
  | some (directory, .down name) =>
      refine (entry_looks directory name).bind_left kept start fun entry looked => ?_
      cases entry with
      | some node => exact start
      | none =>
          have stands := Place.sits_at (sits_of_last_step stepped)
          have free : tree.root.at? (directory.names ++ [name]) = none := by
            rw [Node.at?_append, stands, Option.bind_some, Node.at?_cons, (entry_ok looked).1.symm,
              Option.bind_none]
          refine get_looks.bind_left kept start fun _ _ => ?_
          refine (demand_change_looks _).bind_left kept start fun _ _ => ?_
          refine get_looks.bind_left kept start fun _ _ => ?_
          refine start.trans (Node.KeptBeside.all ?_ free)
          exact Node.kept_beside_update stands (Node.kept_beside_put_entry _ _ _ _)

variable {kept : FileTree → Prop} (makes : ∀ path, Keeps kept (makeDirectory path))
include makes

theorem make_or_keep_keeps (path : String) : Keeps kept (makeOrKeep path) := by
  intro tree start
  have made := makes path tree start
  cases ran : makeDirectory path tree with
  | ok _ after =>
      have same : makeOrKeep path tree = .ok () after := by
        unfold makeOrKeep
        rw [ran]
      rw [left_of_ok ran] at made
      rw [left_of_ok same]
      exact made
  | error cause after =>
      have looked := is_directory_looks path after
      rw [left_of_error ran] at made
      unfold left at looked ⊢
      unfold makeOrKeep
      rw [ran]
      cases asked : isDirectory path after with
      | ok answer later =>
          rw [asked] at looked
          cases looked
          cases answer <;> simpa only [asked] using made
      | error _ later =>
          rw [asked] at looked
          cases looked
          simpa only [asked] using made

theorem make_lineage_keeps (paths : List String) : Keeps kept (makeLineage paths) := by
  induction paths with
  | nil => exact pure_keeps ()
  | cons path above ih =>
      intro tree start
      have made := makes path tree start
      cases ran : makeDirectory path tree with
      | ok _ after =>
          have same : makeLineage (path :: above) tree = .ok () after := by
            unfold makeLineage
            rw [ran]
          rw [left_of_ok ran] at made
          rw [left_of_ok same]
          exact made
      | error cause after =>
          rw [left_of_error ran] at made
          by_cases isMissing : cause = .fault .notFound
          · have same : makeLineage (path :: above) tree =
                (do makeLineage above; makeOrKeep path) after := by
              rw [makeLineage]
              dsimp only
              rw [ran, isMissing]
            rw [left_of_same same]
            exact bind_keeps ih (fun _ => make_or_keep_keeps makes path) after made
          · have same : makeLineage (path :: above) tree = makeOrKeep path after := by
              unfold makeLineage
              rw [ran]
              cases cause with
              | fault fault =>
                  cases fault with
                  | notFound => exact absurd rfl isMissing
                  | _ => rfl
              | nulInName => rfl
              | unreadableBody reason => rfl
              | invalidSeek => rfl
            rw [left_of_same same]
            exact make_or_keep_keeps makes path after made

end Creation

end Disk

namespace DiskResources

theorem create_container_keeps (path : String) (storage : Storage) :
    storage.disk.root.KeptIn (left (createContainer path) storage).disk.root := by
  have makes := Disk.make_lineage_keeps (Disk.make_directory_keeps storage.disk.root)
    (lineage path)
  have keeps : Keeps (fun after : Storage => storage.disk.root.KeptIn after.disk.root)
      (createContainer path) := by
    refine bind_keeps ((container_is_present_looks path).keeps _) fun present => ?_
    exact bind_keeps (Access.on_disk_keeps _ makes) fun _ => pure_keeps _
  exact keeps storage (Node.kept_in_itself _)

/-- However the deletion of a container ends, in a tree without links it has altered nothing
but what stands at and below the names of its path. -/
theorem delete_container_spares (path : String) (storage : Storage)
    (plain : storage.disk.root.Tidy) :
    Node.Spared (ObjectPath.names path) storage.disk.root
      (left (deleteContainer path) storage).disk.root := by
  rw [left_of_delete_container, Access.existingAt, Access.on_disk_disk]
  exact Disk.remove_all_spares plain path

end DiskResources

end StorageScenario
