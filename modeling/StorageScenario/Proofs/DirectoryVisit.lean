import StorageScenario.FileTree.Survey
import StorageScenario.Proofs.TidyDirectory

/-!
The queue of a listing. Whatever waits in it, a visit that ends reads each directory that is
below one that waits, and no other, and a visit that stops does so at one of them that
cannot be read. A step of the loop keeps this because a directory and what is below those
in it are all that is below it.
-/

namespace StorageScenario

open DiskPath ObjectPath

namespace Node

/-- A directory with a proper name of its own for each entry, and so are the directories in
it. Links may stand in it. -/
inductive WellNamed : Node → Prop
  | file (mode : UInt32) (modified : Instant) (content : Bytes) :
      WellNamed (.file mode modified content)
  | link (modified : Instant) (target : String) : WellNamed (.link modified target)
  | directory {mode : UInt32} {modified : Instant} {entries : List (String × Node)}
      (distinct : (entries.map Prod.fst).Nodup) (proper : ∀ entry ∈ entries, IsName entry.1)
      (named : ∀ entry ∈ entries, WellNamed entry.2) :
      WellNamed (.directory mode modified entries)

theorem well_named_entries {node : Node} (named : node.WellNamed) :
    (node.entries.map Prod.fst).Nodup ∧
      ∀ entry ∈ node.entries, IsName entry.1 ∧ entry.2.WellNamed := by
  cases named with
  | file => simp [entries]
  | link => simp [entries]
  | directory distinct proper named =>
      exact ⟨distinct, fun entry member => ⟨proper entry member, named entry member⟩⟩

theorem well_named_at {node child : Node} (named : node.WellNamed) {names : List String}
    (found : node.at? names = some child) : AreNames names ∧ child.WellNamed := by
  induction names generalizing node with
  | nil =>
      cases found
      exact ⟨are_names_nil, named⟩
  | cons name rest ih =>
      obtain ⟨next, entry, below⟩ := Option.bind_eq_some_iff.mp found
      obtain ⟨proper, namedNext⟩ := (well_named_entries named).2 _ (Table.mem_of_lookup entry)
      obtain ⟨names, namedChild⟩ := ih namedNext below
      exact ⟨are_names_cons.mpr ⟨proper, names⟩, namedChild⟩

theorem well_named_of_tidy {node : Node} (tidy : node.Tidy) : node.WellNamed := by
  induction tidy with
  | file mode modified content => exact .file mode modified content
  | directory distinct proper _ ih => exact .directory distinct proper ih

end Node

namespace Folder

/-- What a listing meets from a directory: the directory, and with `recursive` all that are
below it, each under the names on the way to it. -/
def Reaches (recursive : Bool) (folder further : Folder) : Prop :=
  ∃ deeper, (deeper = [] ∨ recursive = true) ∧ folder.node.at? deeper = some further.node ∧
    further.node.isDirectory = true ∧ further.path = deeper.foldl DiskPath.join folder.path ∧
      further.relative = deeper.foldl ObjectPath.join folder.relative

section Visits

variable {recursive : Bool} {folder further : Folder} {waiting : List Folder}

/-- A directory can be listed if its path is not too long, its names can be read and, where it
holds any, looked up. -/
theorem obstacle?_eq_none_iff :
    folder.obstacle? = none ↔ folder.path.utf8ByteSize ≤ FileTree.longestPath ∧
      folder.node.allows .read = true ∧
        (folder.node.entries ≠ [] → folder.node.allows .search = true) := by
  unfold obstacle?
  by_cases long : FileTree.longestPath < folder.path.utf8ByteSize
  · simp [long, Nat.not_le.mpr long]
  · cases folder.node.allows .read with
    | false => simp [long]
    | true =>
        cases folder.node.entries with
        | nil => simp [long, Nat.not_lt.mp long]
        | cons first rest =>
            cases folder.node.allows .search <;> simp [long, Nat.not_lt.mp long]

def Ready (folder : Folder) : Prop :=
  folder.node.isDirectory = true ∧ folder.node.WellNamed

theorem mem_inside_iff (ready : folder.Ready) :
    further ∈ folder.inside ↔ ∃ name child, folder.node.entries.lookup name = some child ∧
      child.isDirectory = true ∧ further =
        ⟨DiskPath.join folder.path name, ObjectPath.join folder.relative name, child⟩ := by
  have distinct := (Node.well_named_entries ready.2).1
  unfold inside
  rw [List.mem_map]
  constructor
  · rintro ⟨⟨name, child⟩, member, rfl⟩
    obtain ⟨stands, isDirectory⟩ := List.mem_filter.mp member
    exact ⟨name, child, (Table.lookup_distinct_iff distinct _ _).mpr stands, isDirectory, rfl⟩
  · rintro ⟨name, child, entry, isDirectory, rfl⟩
    exact ⟨(name, child), List.mem_filter.mpr ⟨Table.mem_of_lookup entry, isDirectory⟩, rfl⟩

theorem ready_inside (ready : folder.Ready) (member : further ∈ folder.inside) :
    further.Ready := by
  obtain ⟨name, child, entry, isDirectory, rfl⟩ := (mem_inside_iff ready).mp member
  exact ⟨isDirectory, ((Node.well_named_entries ready.2).2 _ (Table.mem_of_lookup entry)).2⟩

theorem reaches_itself (ready : folder.Ready) : folder.Reaches recursive folder :=
  ⟨[], Or.inl rfl, rfl, ready.1, rfl, rfl⟩

theorem reaches_iff (ready : folder.Ready) :
    folder.Reaches recursive further ↔
      further = folder ∨
        recursive = true ∧ ∃ next ∈ folder.inside, next.Reaches recursive further := by
  constructor
  · rintro ⟨deeper, reach, stands, isDirectory, isPath, isRelative⟩
    cases deeper with
    | nil =>
        obtain ⟨path, relative, node⟩ := further
        cases stands
        cases isPath
        cases isRelative
        exact Or.inl rfl
    | cons name rest =>
        have descends : recursive = true := reach.resolve_left (List.cons_ne_nil _ _)
        obtain ⟨child, entry, below⟩ := Option.bind_eq_some_iff.mp stands
        have childDirectory : child.isDirectory = true := by
          cases rest with
          | nil =>
              cases below
              exact isDirectory
          | cons later others =>
              obtain ⟨_, inChild, _⟩ := Option.bind_eq_some_iff.mp below
              exact Node.directory_of_entry inChild
        exact Or.inr ⟨descends, _,
          (mem_inside_iff ready).mpr ⟨name, child, entry, childDirectory, rfl⟩,
          rest, Or.inr descends, below, isDirectory, isPath, isRelative⟩
  · rintro (rfl | ⟨descends, next, member, rest, _, below, isDirectory, isPath, isRelative⟩)
    · exact reaches_itself ready
    · obtain ⟨name, child, entry, _, rfl⟩ := (mem_inside_iff ready).mp member
      refine ⟨name :: rest, Or.inr descends, ?_, isDirectory, isPath, isRelative⟩
      rw [Node.at?_cons, entry]
      exact below

/-- Reading the first directory that waits leaves those to be read that are below it. -/
theorem reached_from_queue_iff (ready : folder.Ready) :
    (∃ first ∈ folder :: waiting, first.Reaches recursive further) ↔
      further = folder ∨ ∃ first ∈ waiting ++ folder.following recursive,
        first.Reaches recursive further := by
  have onward : (∃ next ∈ folder.following recursive, next.Reaches recursive further) ↔
      recursive = true ∧ ∃ next ∈ folder.inside, next.Reaches recursive further := by
    unfold following
    cases recursive <;> simp
  rw [List.exists_mem_cons_iff, reaches_iff ready, ← onward]
  simp only [List.mem_append, or_and_right, exists_or]
  exact or_assoc.trans (or_congr_right or_comm)

/-- A visit reads all that is below the directories that wait, or stops at one of these that
cannot be read. -/
theorem visit_cases (recursive : Bool) (waiting : List Folder)
    (ready : ∀ folder ∈ waiting, folder.Ready) :
    (∃ visited, visit recursive waiting = .ok visited ∧ ∀ further,
      (further ∈ visited ↔ ∃ folder ∈ waiting, folder.Reaches recursive further) ∧
        (further ∈ visited → further.obstacle? = none)) ∨
    ∃ obstacle, visit recursive waiting = .error obstacle ∧
      ∃ folder ∈ waiting, ∃ further, folder.Reaches recursive further ∧
        further.obstacle? = some obstacle := by
  induction waiting using visit.induct recursive with
  | case1 => exact Or.inl ⟨[], by rw [visit], by simp⟩
  | case2 folder waiting obstacle blocked =>
      have itself : folder.Reaches recursive folder :=
        reaches_itself (ready folder List.mem_cons_self)
      exact Or.inr ⟨obstacle, by rw [visit, blocked], folder, List.mem_cons_self, folder, itself,
        blocked⟩
  | case3 folder waiting free ih =>
      have readyFolder := ready folder List.mem_cons_self
      have readyLater : ∀ later ∈ waiting ++ folder.following recursive,
          later.Ready := by
        intro later member
        rcases List.mem_append.mp member with waits | isNext
        · exact ready later (List.mem_cons_of_mem _ waits)
        · unfold following at isNext
          split at isNext
          · exact ready_inside readyFolder isNext
          · cases isNext
      rcases ih readyLater with
        ⟨visited, ran, shown⟩ | ⟨obstacle, ran, first, waits, further, reached, blocked⟩
      · refine Or.inl ⟨folder :: visited, ?_, fun further => ⟨?_, ?_⟩⟩
        · rw [visit, free, ran]
          rfl
        · rw [List.mem_cons, (shown further).1, reached_from_queue_iff readyFolder]
        · intro member
          rcases List.mem_cons.mp member with rfl | later
          · exact free
          · exact (shown further).2 later
      · obtain ⟨start, isStart, onward⟩ :=
          (reached_from_queue_iff readyFolder).mpr (Or.inr ⟨first, waits, reached⟩)
        refine Or.inr ⟨obstacle, ?_, start, isStart, further, onward, blocked⟩
        rw [visit, free, ran]
        rfl

end Visits

end Folder

end StorageScenario
