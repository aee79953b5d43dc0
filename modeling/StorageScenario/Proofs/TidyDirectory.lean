import Mathlib.Data.List.Induction
import StorageScenario.Proofs.PathNormalForm
import StorageScenario.Proofs.TreeGrowth

/-!
Tidy directories, in which each entry has a proper name of its own and nothing is a link.
Names lead down in them, so a look-up below a tidy directory finds what stands under the
names, or the directory in which the last of them is free. New entries under proper names
leave a directory tidy.
-/

namespace StorageScenario

open DiskPath ObjectPath

namespace Node

/-- A directory of proper names without links, and so are the directories in it. -/
inductive Tidy : Node → Prop
  | file (mode : UInt32) (modified : Instant) (content : Bytes) : Tidy (.file mode modified content)
  | directory {mode : UInt32} {modified : Instant} {entries : List (String × Node)}
      (distinct : (entries.map Prod.fst).Nodup) (proper : ∀ entry ∈ entries, IsName entry.1)
      (tidy : ∀ entry ∈ entries, Tidy entry.2) : Tidy (.directory mode modified entries)

theorem tidy_entries {node : Node} (tidy : node.Tidy) :
    (node.entries.map Prod.fst).Nodup ∧
      ∀ entry ∈ node.entries, IsName entry.1 ∧ entry.2.Tidy := by
  cases tidy with
  | file => simp [entries]
  | directory distinct proper tidy =>
      exact ⟨distinct, fun entry member => ⟨proper entry member, tidy entry member⟩⟩

theorem tidy_at {node child : Node} (tidy : node.Tidy) {names : List String}
    (found : node.at? names = some child) : AreNames names ∧ child.Tidy := by
  induction names generalizing node with
  | nil =>
      cases found
      exact ⟨are_names_nil, tidy⟩
  | cons name rest ih =>
      obtain ⟨next, entry, below⟩ := Option.bind_eq_some_iff.mp found
      obtain ⟨proper, tidyNext⟩ := (tidy_entries tidy).2 _ (Table.mem_of_lookup entry)
      obtain ⟨names, tidyChild⟩ := ih tidyNext below
      exact ⟨are_names_cons.mpr ⟨proper, names⟩, tidyChild⟩

theorem tidy_update {change : Node → Node}
    (keeps : ∀ node : Node, node.Tidy → (change node).Tidy)
    {node : Node} (tidy : node.Tidy) (names : List String) : (node.update change names).Tidy := by
  induction names generalizing node with
  | nil => exact keeps node tidy
  | cons name rest ih =>
      cases tidy with
      | file mode modified content => exact .file mode modified content
      | @directory mode modified entries distinct proper tidy =>
          have sameKeys : (entries.map fun entry =>
              if entry.1 = name then (entry.1, entry.2.update change rest) else entry).map
                Prod.fst = entries.map Prod.fst := by
            rw [List.map_map]
            apply List.map_congr_left
            intro entry _
            simp only [Function.comp_apply]
            split <;> rfl
          rw [update]
          refine .directory (sameKeys.symm ▸ distinct) ?_ ?_
          · intro changed member
            obtain ⟨entry, before, rfl⟩ := List.mem_map.mp member
            split
            · exact proper entry before
            · exact proper entry before
          · intro changed member
            obtain ⟨entry, before, rfl⟩ := List.mem_map.mp member
            split
            · exact ih (tidy entry before)
            · exact tidy entry before

theorem tidy_put_entry {node child : Node} {name : String} (tidy : node.Tidy)
    (tidyChild : child.Tidy) (proper : IsName name) (now : Instant) :
    (putEntry now name child node).Tidy := by
  cases tidy with
  | file mode modified content => exact .file mode modified content
  | @directory mode modified entries distinct properOnes tidyOnes =>
      have kept : ∀ entry ∈ entries.filter fun entry => entry.1 ≠ name, entry ∈ entries :=
        fun entry member => (List.mem_filter.mp member).1
      refine .directory ?_ ?_ ?_
      · rw [List.map_append, List.nodup_append]
        refine ⟨distinct.sublist (List.filter_sublist.map Prod.fst), by simp, ?_⟩
        intro first isKept second isNew same
        obtain ⟨entry, member, isFirst⟩ := List.mem_map.mp isKept
        have isName : second = name := by simpa using isNew
        exact of_decide_eq_true (List.mem_filter.mp member).2
          (isFirst.trans (same.trans isName))
      · intro entry member
        rcases List.mem_append.mp member with old | new
        · exact properOnes entry (kept entry old)
        · cases List.mem_singleton.mp new
          exact proper
      · intro entry member
        rcases List.mem_append.mp member with old | new
        · exact tidyOnes entry (kept entry old)
        · cases List.mem_singleton.mp new
          exact tidyChild

/-- A look-up of names goes through directories that may be searched, of which only the last
need not hold its name. -/
def Passable (node : Node) (names : List String) : Prop :=
  ∀ front name rest, names = front ++ name :: rest →
    ¬ FileTree.longestName < name.utf8ByteSize ∧
      ∃ directory, node.at? front = some directory ∧ directory.isDirectory = true ∧
        directory.allows .search = true

theorem passable_nil (node : Node) : node.Passable [] := by
  intro front name rest whole
  simp at whole

theorem passable_cons {node : Node} {name : String} {rest : List String}
    (isDirectory : node.isDirectory = true) (searchable : node.allows .search = true)
    (short : ¬ FileTree.longestName < name.utf8ByteSize)
    (onward : rest ≠ [] → ∃ child, node.entries.lookup name = some child ∧
      child.Passable rest) :
    node.Passable (name :: rest) := by
  intro front other others whole
  cases front with
  | nil =>
      cases whole
      exact ⟨short, node, rfl, isDirectory, searchable⟩
  | cons first further =>
      obtain ⟨rfl, isRest⟩ := List.cons.inj whole
      obtain ⟨child, entry, passable⟩ := onward (by rw [isRest]; simp)
      obtain ⟨shortOther, directory, stands, holds⟩ := passable further other others isRest
      refine ⟨shortOther, directory, ?_, holds⟩
      rw [at?_cons, entry]
      exact stands

theorem passable_snoc {node directory : Node} {names : List String} {name : String}
    (passable : node.Passable names) (stands : node.at? names = some directory)
    (isDirectory : directory.isDirectory = true) (searchable : directory.allows .search = true)
    (short : ¬ FileTree.longestName < name.utf8ByteSize) : node.Passable (names ++ [name]) := by
  intro front other rest whole
  rcases List.eq_nil_or_concat' rest with rfl | ⟨further, last, rfl⟩
  · obtain ⟨rfl, isLast⟩ := List.append_inj' whole rfl
    cases isLast
    exact ⟨short, directory, stands, isDirectory, searchable⟩
  · rw [← List.cons_append, ← List.append_assoc] at whole
    exact passable front other further (List.append_inj' whole rfl).1

theorem Passable.stays {before after : Node} {names : List String}
    (passable : before.Passable names) (stays : before.StaysIn after) : after.Passable names := by
  intro front name rest whole
  obtain ⟨short, directory, stands, isDirectory, searchable⟩ := passable front name rest whole
  obtain ⟨later, found, still, allowed⟩ := stays.directories stands isDirectory
  exact ⟨short, later, found, still, allowed _ searchable⟩

end Node

namespace FileTree

open Place

section Walks

variable {root : Node} {place : Place} {names : List String}

/-- Where a look-up of names ends below a place: at what stands under them, or in the
directory of the last one, which is free. -/
def Spot.IsBelow (place : Place) (names : List String) : Spot → Prop
  | .found reached =>
      reached.names = place.names ++ names ∧ place.node.at? names = some reached.node
  | .vacant directory name =>
      ∃ front, names = front ++ [name] ∧ directory.names = place.names ++ front ∧
        place.node.at? front = some directory.node ∧ directory.node.isDirectory = true ∧
          directory.node.entries.lookup name = none

theorem Spot.is_below_down {place : Place} {name : String} {child : Node} {rest : List String}
    {spot : Spot} (entry : place.node.entries.lookup name = some child)
    (below : spot.IsBelow (place.down name child) rest) : spot.IsBelow place (name :: rest) := by
  have further : ∀ names, place.node.at? (name :: names) = child.at? names := by
    intro names
    rw [Node.at?_cons, entry, Option.bind_some]
  match spot, below with
  | .found reached, ⟨named, stands⟩ =>
      refine ⟨?_, (further rest).trans stands⟩
      rw [named, names_down, List.append_assoc, List.singleton_append]
  | .vacant directory last, ⟨front, whole, named, stands, isDirectory, free⟩ =>
      have longer : name :: rest = (name :: front) ++ [last] := by rw [whole, List.cons_append]
      refine ⟨name :: front, longer, ?_, (further front).trans stands, isDirectory, free⟩
      rw [named, names_down, List.append_assoc, List.singleton_append]

/-- A stride along names meets no link in a tidy directory. With a last step that stays, it
arrives in a directory that may be searched. -/
theorem stride_below {aim : Aim} (follows : aim ≠ .entry) {tail : List DiskPath.Step}
    (ends : tail = [] ∨ tail = [.here]) (tidy : place.node.Tidy)
    (isDirectory : place.node.isDirectory = true) {result : Stride}
    (ran : stride root aim place (names.map .down ++ tail) = .ok result) :
    place.node.Passable names ∧ ∃ spot, result = .arrived spot ∧ spot.IsBelow place names ∧
      (tail ≠ [] → ∃ reached, spot = .found reached ∧ reached.node.isDirectory = true ∧
        reached.node.allows .search = true) := by
  induction names generalizing place with
  | nil =>
      have arrived : result = .arrived (.found place) ∧
          (tail ≠ [] → place.node.allows .search = true) := by
        rcases ends with rfl | rfl
        · cases ran
          exact ⟨rfl, fun more => absurd rfl more⟩
        · rw [List.map_nil, List.nil_append, stride] at ran
          obtain ⟨searchable, ran⟩ := check_search_bind_ok ran
          cases ran
          exact ⟨rfl, fun _ => searchable⟩
      exact ⟨Node.passable_nil _, _, arrived.1, ⟨by simp, rfl⟩,
        fun more => ⟨place, rfl, isDirectory, arrived.2 more⟩⟩
  | cons name rest ih =>
      obtain ⟨searchable, short, met⟩ := stride_down_ok follows ran
      have passable : (rest ≠ [] → ∃ child, place.node.entries.lookup name = some child ∧
          child.Passable rest) → place.node.Passable (name :: rest) :=
        Node.passable_cons isDirectory searchable short
      rcases met with ⟨free, last, rfl⟩ | ⟨child, entry, met⟩
      · obtain ⟨noNames, noTail⟩ := List.append_eq_nil_iff.mp last
        have isLast : rest = [] := List.map_eq_nil_iff.mp noNames
        subst isLast
        exact ⟨passable fun more => absurd rfl more, _, rfl,
          ⟨[], rfl, by simp, rfl, isDirectory, free⟩, fun more => absurd noTail more⟩
      · have tidyChild := ((Node.tidy_entries tidy).2 _ (Table.mem_of_lookup entry)).2
        rcases met with ⟨childDirectory, ran⟩ | ⟨⟨_, _, _, rfl⟩, last, rfl⟩ |
          ⟨_, _, rfl, _⟩
        · obtain ⟨passableChild, spot, arrived, below, further⟩ :=
            ih tidyChild childDirectory ran
          exact ⟨passable fun _ => ⟨child, entry, passableChild⟩, spot, arrived,
            Spot.is_below_down entry below, further⟩
        · obtain ⟨noNames, noTail⟩ := List.append_eq_nil_iff.mp last
          have isLast : rest = [] := List.map_eq_nil_iff.mp noNames
          subst isLast
          refine ⟨passable fun more => absurd rfl more, _, rfl, ⟨by simp, ?_⟩,
            fun more => absurd noTail more⟩
          rw [Node.at?_cons, entry]
          rfl
        · cases tidyChild

theorem walk_below {aim : Aim} (follows : aim ≠ .entry) {tail : List DiskPath.Step} {links : Nat}
    (ends : tail = [] ∨ tail = [.here]) (tidy : place.node.Tidy)
    (isDirectory : place.node.isDirectory = true) {spot : Spot}
    (ran : walk root aim links place (names.map .down ++ tail) = .ok spot) :
    place.node.Passable names ∧ spot.IsBelow place names ∧
      (tail ≠ [] → ∃ reached, spot = .found reached ∧ reached.node.isDirectory = true ∧
        reached.node.allows .search = true) := by
  rcases walk_ok_cases ran with strode | ⟨_, _, _, _, strode, _⟩
  · obtain ⟨passable, _, arrived, below⟩ := stride_below follows ends tidy isDirectory strode
    cases arrived
    exact ⟨passable, below⟩
  · obtain ⟨_, _, impossible, _⟩ := stride_below follows ends tidy isDirectory strode
    cases impossible

theorem look_up_not_missing {aim : Aim} {name : String} {rest : List DiskPath.Step} :
    lookUp aim place name rest ≠ .error .notFound := by
  unfold lookUp checkSearch
  intro ran
  split at ran
  · simp only [bind, Except.bind] at ran
    split at ran
    · cases ran
    · split at ran
      · cases ran
      · split at ran <;> cases ran
  · cases ran

theorem stride_missing {aim : Aim} (follows : aim ≠ .entry)
    (ran : stride root aim place (names.map .down) = .error .notFound) :
    place.node.at? names = none := by
  induction names generalizing place with
  | nil => cases ran
  | cons name rest ih =>
      rw [List.map_cons, stride] at ran
      cases looked : lookUp aim place name (rest.map .down) with
      | error cause =>
          rw [looked] at ran
          cases ran
          exact absurd looked look_up_not_missing
      | ok entry =>
          rw [looked] at ran
          obtain ⟨_, _, rfl⟩ := look_up_ok looked
          rw [Node.at?_cons]
          cases met : place.node.entries.lookup name with
          | none => rfl
          | some child =>
              rw [met] at ran
              cases child with
              | directory _ _ _ => exact ih ran
              | file _ _ _ => cases rest <;> cases ran
              | link _ _ =>
                  simp only [bind, Except.bind, follows, and_false, if_false] at ran
                  cases ran

theorem walk_missing {aim : Aim} (follows : aim ≠ .entry) {links : Nat} (tidy : place.node.Tidy)
    (isDirectory : place.node.isDirectory = true)
    (ran : walk root aim links place (names.map .down) = .error .notFound) :
    place.node.at? names = none := by
  rw [walk] at ran
  cases strode : stride root aim place (names.map .down) with
  | error cause =>
      rw [strode] at ran
      cases ran
      exact stride_missing follows strode
  | ok result =>
      rw [strode] at ran
      rw [← List.append_nil (names.map Step.down)] at strode
      obtain ⟨_, _, rfl, _⟩ := stride_below follows (Or.inl rfl) tidy isDirectory strode
      cases ran

end Walks

end FileTree

end StorageScenario
