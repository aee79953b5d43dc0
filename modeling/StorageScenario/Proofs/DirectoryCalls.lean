import StorageScenario.Proofs.PathPieces
import StorageScenario.Proofs.ReadOnlyCalls
import StorageScenario.Proofs.TidyDirectory

/-!
Calls on a file tree whose paths lead into one tidy directory of it. A call that succeeds
tells what stands under the names in there, or has made what it was to make and all that was
missing above it, and has changed nothing else.
-/

namespace StorageScenario

open DiskPath ObjectPath Work

namespace FileTree

open Place

/-- Steps that lead to a tidy directory, wherever it is in the tree. -/
structure Grounds (way : List DiskPath.Step) (left : Nat) (base : List String) (tree : FileTree)
    (ground : Node) : Prop where
  leads : Leads tree.root linkLimit [] way left base
  stands : tree.root.at? base = some ground
  isDirectory : ground.isDirectory = true
  tidy : ground.Tidy

section Searches

variable {way : List DiskPath.Step} {left : Nat} {base : List String} {tree : FileTree}
  {ground : Node} {names : List String} {path : String}

theorem Grounds.place (grounds : Grounds way left base tree ground) :
    ∃ place, SitsIn tree.root place ∧ place.names = base ∧ place.node = ground ∧
      ∀ aim rest, GoesOn aim rest →
        tree.search aim (way ++ rest) = walk tree.root aim left place rest := by
  obtain ⟨place, sits, named, same⟩ := grounds.leads.walk .root rfl
  have stands := sits_at sits
  rw [named, grounds.stands] at stands
  exact ⟨place, sits, named, (Option.some.inj stands).symm, same⟩

/-- A look-up of a path ends where its names do inside the directory. -/
theorem Grounds.search (grounds : Grounds way left base tree ground)
    (into : GoesInto way names path) {aim : Aim}
    (asked : aim = .target ∨ (aim = .entry ∨ aim = .writing) ∧ names ≠ []) :
    ∃ place, place.names = base ∧ place.node = ground ∧
      tree.search aim (route path) = walk tree.root aim left place (names.map .down) := by
  obtain ⟨place, sits, named, isGround, same⟩ := grounds.place
  refine ⟨place, named, isGround, ?_⟩
  rcases names.eq_nil_or_concat' with rfl | ⟨front, last, rfl⟩
  · have target : aim = .target := by simpa using asked
    subst target
    have steps := steps_into into
    rw [List.map_nil, List.append_nil] at steps
    unfold route
    rw [steps, List.map_nil]
    split
    · rw [same _ _ (Or.inl rfl)]
      exact walk_of_stride (by simp only [stride])
    · rw [← List.append_nil way, same _ _ (Or.inl rfl)]
  · rw [route_into into, steps_into into]
    apply same
    rcases asked with target | ⟨entry | writing, _⟩
    · exact Or.inl target
    · exact Or.inr (Or.inl ⟨entry, by simp⟩)
    · refine Or.inr (Or.inr ⟨writing, by simp, ?_⟩)
      cases front <;> simp

theorem enter_found {steps : List DiskPath.Step} {directory : Place}
    (entered : tree.enter steps = .ok directory) :
    tree.search .target (steps ++ [.here]) = .ok (.found directory) := by
  unfold FileTree.enter at entered
  cases ran : tree.search .target (steps ++ [.here]) with
  | error cause =>
      rw [ran] at entered
      cases entered
  | ok spot =>
      rw [ran] at entered
      cases spot with
      | found reached =>
          cases entered
          rfl
      | vacant directory name => cases entered

theorem Grounds.enter (grounds : Grounds way left base tree ground) {directory : Place}
    (entered : tree.enter (way ++ names.map .down) = .ok directory) :
    directory.names = base ++ names ∧ ground.at? names = some directory.node ∧
      directory.node.isDirectory = true ∧ directory.node.allows .search = true ∧
        ground.Passable names := by
  obtain ⟨place, sits, named, isGround, same⟩ := grounds.place
  subst isGround named
  have ran := enter_found entered
  rw [List.append_assoc, same _ _ (Or.inl rfl)] at ran
  obtain ⟨passable, below, further⟩ :=
    walk_below (by decide) (Or.inr rfl) grounds.tidy grounds.isDirectory ran
  obtain ⟨reached, isReached, isDirectory, searchable⟩ := further (by simp)
  cases isReached
  exact ⟨below.1, below.2, isDirectory, searchable, passable⟩

end Searches

end FileTree

namespace Disk

open FileTree

def PathFits (path : String) : Prop :=
  '\x00' ∉ path.toList ∧ path ≠ "" ∧ path.utf8ByteSize ≤ longestPath

instance (path : String) : Decidable (PathFits path) :=
  inferInstanceAs (Decidable (_ ∧ _ ∧ _))

section Outcomes

variable {tree after : FileTree} {path : String} {cause : IoError}

theorem check_path_of_fits (fits : PathFits path) (tree : FileTree) :
    checkPath path tree = .ok () tree := by
  obtain ⟨plain, nonempty, short⟩ := fits
  unfold checkPath
  rw [if_neg plain, if_neg nonempty, if_neg (Nat.not_lt.mpr short)]
  rfl

theorem fits_of_check_path {value : Unit} (ran : checkPath path tree = .ok value after) :
    PathFits path := by
  unfold checkPath at ran
  split at ran
  · cases ran
  · rename_i plain
    split at ran
    · cases ran
    · rename_i nonempty
      split at ran
      · cases ran
      · rename_i short
        exact ⟨plain, nonempty, Nat.not_lt.mp short⟩

theorem check_path_missing (ran : checkPath path tree = .error (.fault .notFound) after) :
    path = "" := by
  unfold checkPath at ran
  split at ran
  · cases ran
  · split at ran
    · rename_i isEmpty
      exact isEmpty
    · split at ran <;> cases ran

theorem check_ok {α : Type} {result : Except FileFault α} {value : α}
    (ran : check result tree = .ok value after) : result = .ok value := by
  cases result with
  | ok found =>
      cases ran
      rfl
  | error fault => cases ran

theorem check_error {α : Type} {result : Except FileFault α} {fault : FileFault}
    (ran : check result tree = .error (.fault fault) after) : result = .error fault := by
  cases result with
  | ok found => cases ran
  | error cause =>
      cases ran
      rfl

theorem spot_ok {aim : Aim} {found : Spot} (ran : spot path aim tree = .ok found after) :
    tree.search aim (route path) = .ok found := by
  obtain ⟨_, between, allowed, searched⟩ := bind_ok_iff.mp ran
  cases (check_path_looks path).of_ok allowed
  obtain ⟨_, _, got, checked⟩ := bind_ok_iff.mp searched
  cases got
  exact check_ok checked

theorem fits_of_locate {aim : Aim} {place : Place} (ran : locate path aim tree = .ok place after) :
    PathFits path := by
  obtain ⟨_, _, looked, _⟩ := bind_ok_iff.mp ran
  obtain ⟨_, _, allowed, _⟩ := bind_ok_iff.mp looked
  exact fits_of_check_path allowed

theorem spot_missing {aim : Aim} (ran : spot path aim tree = .error (.fault .notFound) after) :
    path = "" ∨ tree.search aim (route path) = .error .notFound := by
  rcases bind_error_iff.mp ran with refused | ⟨_, between, allowed, searched⟩
  · exact Or.inl (check_path_missing refused)
  · cases (check_path_looks path).of_ok allowed
    rcases bind_error_iff.mp searched with never | ⟨_, _, got, checked⟩
    · cases never
    · cases got
      exact Or.inr (check_error checked)

theorem locate_ok {aim : Aim} {place : Place} (ran : locate path aim tree = .ok place after) :
    tree.search aim (route path) = .ok (.found place) := by
  obtain ⟨found, _, looked, returned⟩ := bind_ok_iff.mp ran
  cases found with
  | found place =>
      cases returned
      exact spot_ok looked
  | vacant directory name => cases returned

theorem locate_missing {aim : Aim}
    (ran : locate path aim tree = .error (.fault .notFound) after) :
    path = "" ∨ tree.search aim (route path) = .error .notFound ∨
      ∃ directory name, tree.search aim (route path) = .ok (.vacant directory name) := by
  rcases bind_error_iff.mp ran with failed | ⟨found, _, looked, returned⟩
  · exact (spot_missing failed).imp_right Or.inl
  · cases found with
    | found place => cases returned
    | vacant directory name => exact Or.inr (Or.inr ⟨directory, name, spot_ok looked⟩)

theorem is_present_ok {present : Bool} (ran : isPresent path tree = .ok present after) :
    (∃ node, metadata path tree = .ok node after ∧ present = true) ∨
      metadata path tree = .error (.fault .notFound) after ∧ present = false := by
  unfold isPresent at ran
  split at ran
  · rename_i read
    cases ran
    exact Or.inl ⟨_, read, rfl⟩
  · rename_i missing
    cases ran
    exact Or.inr ⟨missing, rfl⟩
  · cases ran

end Outcomes

section Reading

variable {way : List DiskPath.Step} {left : Nat} {base : List String} {tree after : FileTree}
  {ground node : Node} {names : List String} {path : String}

theorem grounds_of_metadata (ran : metadata path tree = .ok ground after)
    (isDirectory : ground.isDirectory = true) (tidy : ground.Tidy) :
    path ≠ "" ∧ ∃ left base, Grounds (steps path) left base tree ground := by
  obtain ⟨place, _, located, returned⟩ := bind_ok_iff.mp ran
  cases returned
  have searched := locate_ok located
  have nonempty : path ≠ "" := by
    rintro rfl
    cases located
  have rootDirectory := root_of_walk searched isDirectory
  obtain ⟨sits, left, leads⟩ := walk_leads .root rootDirectory searched isDirectory
  refine ⟨nonempty, left, place.names, ?_, Place.sits_at sits, isDirectory, tidy⟩
  unfold route at leads
  split at leads
  · obtain ⟨_, _, before, behind⟩ := leads.split
    cases behind with
    | asFolder onward =>
        cases onward
        exact before
  · exact leads

theorem locate_inside (grounds : Grounds way left base tree ground)
    (into : GoesInto way names path) {place : Place}
    (ran : locate path .target tree = .ok place after) :
    place.names = base ++ names ∧ ground.at? names = some place.node ∧
      ground.Passable names := by
  obtain ⟨start, rfl, rfl, same⟩ := grounds.search into (Or.inl rfl)
  have searched := locate_ok ran
  rw [same, ← List.append_nil (names.map Step.down)] at searched
  obtain ⟨passable, ⟨named, stands⟩, _⟩ :=
    walk_below (by decide) (Or.inl rfl) grounds.tidy grounds.isDirectory searched
  exact ⟨named, stands, passable⟩

theorem metadata_inside (grounds : Grounds way left base tree ground)
    (into : GoesInto way names path) (ran : metadata path tree = .ok node after) :
    ground.at? names = some node := by
  obtain ⟨place, _, located, returned⟩ := bind_ok_iff.mp ran
  cases returned
  exact (locate_inside grounds into located).2.1

theorem metadata_missing_inside (grounds : Grounds way left base tree ground)
    (into : GoesInto way names path) (nonempty : path ≠ "")
    (ran : metadata path tree = .error (.fault .notFound) after) : ground.at? names = none := by
  rcases bind_error_iff.mp ran with failed | ⟨_, _, _, never⟩
  · obtain ⟨start, _, rfl, same⟩ := grounds.search into (Or.inl rfl)
    rcases locate_missing failed with isEmpty | missing | ⟨directory, name, searched⟩
    · exact absurd isEmpty nonempty
    · rw [same] at missing
      exact walk_missing (by decide) grounds.tidy grounds.isDirectory missing
    · rw [same, ← List.append_nil (names.map Step.down)] at searched
      obtain ⟨_, ⟨front, rfl, _, stands, _, free⟩, _⟩ :=
        walk_below (by decide) (Or.inl rfl) grounds.tidy grounds.isDirectory searched
      rw [Node.at?_snoc stands, free]
  · cases never

theorem is_present_inside (grounds : Grounds way left base tree ground)
    (into : GoesInto way names path) (nonempty : path ≠ "") {present : Bool}
    (ran : isPresent path tree = .ok present after) : present = (ground.at? names).isSome := by
  rcases is_present_ok ran with ⟨node, read, rfl⟩ | ⟨missing, rfl⟩
  · rw [metadata_inside grounds into read]
    rfl
  · rw [metadata_missing_inside grounds into nonempty missing]
    rfl

theorem directory_node_inside (grounds : Grounds way left base tree ground)
    (into : GoesInto way names path) (ran : directoryNode path tree = .ok node after) :
    ground.at? names = some node ∧ node.isDirectory = true := by
  obtain ⟨found, between, read, entered⟩ := bind_ok_iff.mp ran
  split at entered
  · rename_i isDirectory
    obtain ⟨_, _, _, returned⟩ := bind_ok_iff.mp entered
    cases returned
    exact ⟨metadata_inside grounds into read, isDirectory⟩
  · cases entered

theorem is_directory_inside (grounds : Grounds way left base tree ground)
    (into : GoesInto way names path) (ran : isDirectory path tree = .ok true after) :
    ∃ node, ground.at? names = some node ∧ node.isDirectory = true ∧
      ground.Passable names := by
  unfold isDirectory at ran
  cases read : metadata path tree with
  | ok node between =>
      rw [read] at ran
      injection ran with isDirectory unchanged
      obtain ⟨place, _, located, returned⟩ := bind_ok_iff.mp read
      cases returned
      obtain ⟨_, stands, passable⟩ := locate_inside grounds into located
      exact ⟨_, stands, isDirectory, passable⟩
  | error cause between =>
      rw [read] at ran
      cases ran

end Reading

end Disk

end StorageScenario
