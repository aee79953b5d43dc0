import StorageScenario.Proofs.DirectoryModes

/-!
Removing what stands under names. It takes everything below with it and alters nothing else, and
the directories and links of a tree that holds nothing there stay in any such tree. A directory
of which all directories belong to the caller can be cleared.
-/

namespace StorageScenario

open DiskPath ObjectPath FileTree Work

namespace Node

def KeptIn (before after : Node) : Prop :=
  ∀ others held, before.at? others = some held →
    ∃ later, after.at? others = some later ∧ held.Unaltered later

/-- What stands elsewhere than at and below names is still there and is not altered. -/
def KeptBeside (names : List String) (before after : Node) : Prop :=
  ∀ others held, ¬ names <+: others → before.at? others = some held →
    ∃ later, after.at? others = some later ∧ held.Unaltered later

/-- Away from what stands at and below names nothing is altered. -/
def Spared (names : List String) (before after : Node) : Prop :=
  ∀ others, ¬ names <+: others → Remains (before.at? others) (after.at? others)

structure Removed (names : List String) (before after : Node) : Prop where
  gone : ∀ deeper, after.at? (names ++ deeper) = none
  spared : Spared names before after

theorem kept_in_itself (node : Node) : KeptIn node node :=
  fun _ held isHeld => ⟨held, isHeld, .itself held⟩

theorem KeptIn.trans {first second third : Node} (before : KeptIn first second)
    (behind : KeptIn second third) : KeptIn first third := by
  intro others held isHeld
  obtain ⟨between, found, unaltered⟩ := before others held isHeld
  obtain ⟨later, foundLater, unalteredLater⟩ := behind others between found
  exact ⟨later, foundLater, unaltered.trans unalteredLater⟩

theorem Remains.trans {first second third : Option Node} (before : Remains first second)
    (behind : Remains second third) : Remains first third := by
  cases before with
  | none => exact behind
  | some unaltered =>
      cases behind with
      | some further => exact .some (unaltered.trans further)

theorem spared_itself (names : List String) (node : Node) : Spared names node node :=
  fun _ _ => remains_itself _

theorem Spared.trans {names : List String} {first second third : Node}
    (before : Spared names first second) (behind : Spared names second third) :
    Spared names first third :=
  fun others elsewhere => (before others elsewhere).trans (behind others elsewhere)

theorem KeptIn.beside {names : List String} {before after : Node}
    (kept : KeptIn before after) : KeptBeside names before after :=
  fun others held _ => kept others held

theorem Spared.beside {names : List String} {before after : Node}
    (spared : Spared names before after) : KeptBeside names before after :=
  fun others _ elsewhere isHeld => later_of_remains (spared others elsewhere) isHeld

theorem KeptBeside.trans {names : List String} {first second third : Node}
    (begins : KeptBeside names first second)
    (goesOn : KeptBeside names second third) : KeptBeside names first third := by
  intro others held elsewhere isHeld
  obtain ⟨middle, isMiddle, toMiddle⟩ := begins others held elsewhere isHeld
  obtain ⟨later, isLater, toLater⟩ := goesOn others middle elsewhere isMiddle
  exact ⟨later, isLater, toMiddle.trans toLater⟩

theorem apart_of_free {root held : Node} {names others : List String} (free : root.at? names = none)
    (isHeld : root.at? others = some held) : ¬ names <+: others := by
  rintro ⟨deeper, rfl⟩
  rw [at?_append, free] at isHeld
  cases isHeld

theorem KeptBeside.all {names : List String} {before after : Node}
    (kept : KeptBeside names before after) (free : before.at? names = none) :
    KeptIn before after :=
  fun others held isHeld => kept others held (apart_of_free free isHeld) isHeld

theorem directory_of_remains {before after : Node}
    (remains : Remains (before.at? []) (after.at? []))
    (isDirectory : before.isDirectory = true) : after.isDirectory = true := by
  obtain ⟨later, same, unaltered⟩ := later_of_remains remains (at?_nil before)
  cases same
  exact unaltered.isDirectory.trans isDirectory

theorem Changeable.later {before after : Node} (changeable : before.Changeable)
    (unaltered : before.Unaltered after) : after.Changeable :=
  ⟨unaltered.isDirectory.trans changeable.1, (unaltered.allows _).trans changeable.2.1,
    (unaltered.allows _).trans changeable.2.2⟩

section Removing

variable {root directory node origin after : Node} {names : List String} {name : String}

theorem drop_entry_lookup (now : Instant) (name : String) (directory : Node) (other : String) :
    (dropEntry now name directory).entries.lookup other =
      if other = name then none else directory.entries.lookup other := by
  cases directory with
  | directory mode modified entries => exact Table.lookup_without name other entries
  | file _ _ _ => split <;> rfl
  | link _ _ => split <;> rfl

theorem drop_entry_unaltered (isDirectory : directory.isDirectory = true) (now : Instant)
    (name : String) : directory.Unaltered (dropEntry now name directory) := by
  obtain ⟨modified, same⟩ := eq_directory isDirectory
  rw [same]
  exact ⟨rfl, rfl, fun no => nomatch no⟩

theorem update_update (root : Node) (first second : Node → Node) (names : List String) :
    (root.update first names).update second names =
      root.update (fun node => second (first node)) names := by
  induction names generalizing root with
  | nil => rfl
  | cons name rest ih =>
      cases root with
      | directory mode modified entries =>
          simp only [update, List.map_map]
          congr 1
          apply List.map_congr_left
          intro entry _
          by_cases same : entry.1 = name <;> simp [same, ih]
      | file _ _ _ => rfl
      | link _ _ => rfl

/-- What has been changed in an entry is lost with the entry. -/
theorem drop_entry_update (now : Instant) (name : String) (change : Node → Node) (node : Node) :
    dropEntry now name (node.update change [name]) = dropEntry now name node := by
  cases node with
  | directory mode modified entries =>
      simp only [update, dropEntry]
      congr 1
      induction entries with
      | nil => rfl
      | cons entry rest ih =>
          simp only [ne_eq, decide_not] at ih
          by_cases same : entry.1 = name <;> simp [same, ih]
  | file _ _ _ => rfl
  | link _ _ => rfl

theorem drop_after_change (root : Node) (now : Instant) (names : List String) (name : String)
    (change : Node → Node) :
    (root.update change (names ++ [name])).update (dropEntry now name) names =
      root.update (dropEntry now name) names := by
  rw [update_append, update_update]
  simp only [drop_entry_update]

theorem removed_drop_entry (found : root.at? names = some directory)
    (isDirectory : directory.isDirectory = true) (now : Instant) (name : String) :
    Removed (names ++ [name]) root (root.update (dropEntry now name) names) where
  gone deeper := by
    rw [List.append_assoc, at?_update_append found, List.singleton_append, at?_cons,
      drop_entry_lookup, if_pos rfl, Option.bind_none]
  spared others elsewhere := by
    by_cases inside : names <+: others
    · obtain ⟨deeper, rfl⟩ := inside
      rw [at?_update_append found, at?_append, found, Option.bind_some]
      cases deeper with
      | nil => exact .some (drop_entry_unaltered isDirectory now name)
      | cons other rest =>
          have apart : other ≠ name := by
            rintro rfl
            exact elsewhere ⟨rest, by simp⟩
          rw [at?_cons, at?_cons, drop_entry_lookup, if_neg apart]
          exact remains_itself _
    · exact remains_elsewhere inside

/-- A tree that holds nothing under the names stays in whatever changes there. -/
theorem StaysIn.apart (stays : origin.StaysIn root) (isNew : origin.at? names = none)
    (spared : Spared names root after) : origin.StaysIn after := by
  constructor
  · intro others held isHeld isDirectory
    obtain ⟨between, found, still, allowed⟩ := stays.directories isHeld isDirectory
    obtain ⟨later, foundLater, unaltered⟩ :=
      later_of_remains (spared _ (apart_of_free isNew isHeld)) found
    refine ⟨later, foundLater, unaltered.isDirectory.trans still, ?_⟩
    exact fun permission has => (unaltered.allows permission).trans (allowed permission has)
  · intro others modified target isHeld
    obtain ⟨later, foundLater, unaltered⟩ :=
      later_of_remains (spared _ (apart_of_free isNew isHeld)) (stays.links isHeld)
    rw [foundLater, unaltered.same rfl]

theorem tidy_drop_entry (tidy : node.Tidy) (now : Instant) (name : String) :
    (dropEntry now name node).Tidy := by
  cases tidy with
  | file mode modified content => exact .file mode modified content
  | @directory mode modified entries distinct proper tidy =>
      have kept : ∀ entry ∈ entries.filter fun entry => entry.1 ≠ name, entry ∈ entries :=
        fun entry member => (List.mem_filter.mp member).1
      refine .directory ?_ ?_ ?_
      · exact distinct.sublist (List.filter_sublist.map Prod.fst)
      · exact fun entry member => proper entry (kept entry member)
      · exact fun entry member => tidy entry (kept entry member)

end Removing

def Owned (node : Node) : Prop :=
  ∀ names held, node.at? names = some held → held.isDirectory = true → held.AllowsAll

theorem clear_owned {node : Node} (tidy : node.Tidy) (owned : node.Owned) (now : Instant) :
    (node.clear now).2 = false ∧
      (node.isDirectory = true → (node.clear now).1.entries = [] ∧
        (node.clear now).1.isDirectory = true ∧ (node.clear now).1.Tidy) := by
  induction tidy with
  | file mode modified content => exact ⟨rfl, fun no => nomatch no⟩
  | @directory mode modified entries distinct proper tidy ih =>
      have allowsAll := owned [] _ rfl rfl
      have cleared : ∀ rest, (∀ entry ∈ rest, entry ∈ entries) →
          clearEntries now true true rest = ([], false) := by
        intro rest
        induction rest with
        | nil => exact fun _ => rfl
        | cons entry others ihOthers =>
            intro members
            have member := members entry List.mem_cons_self
            have ownedEntry : entry.2.Owned := by
              intro names held isHeld isDirectory
              apply owned (entry.1 :: names) held _ isDirectory
              rw [at?_cons]
              have isEntry := (Table.lookup_distinct_iff distinct entry.1 entry.2).mpr member
              exact (congrArg (Option.bind · _) isEntry).trans isHeld
            obtain ⟨goesOn, _⟩ := ih entry member ownedEntry
            have isCleared : entry.2.clear now = ((entry.2.clear now).1, false) :=
              Prod.ext rfl goesOn
            rw [clearEntries, if_pos rfl, isCleared]
            exact ihOthers fun other isOther => members other (List.mem_cons_of_mem _ isOther)
      rw [clear, if_pos (allowsAll .read), allowsAll .search, allowsAll .write,
        cleared entries fun _ => id]
      exact ⟨rfl, fun _ => ⟨rfl, rfl, .directory (by simp) (by simp) (by simp)⟩⟩

end Node

end StorageScenario
