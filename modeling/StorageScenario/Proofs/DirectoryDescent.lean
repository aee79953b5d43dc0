import StorageScenario.Proofs.DirectoryCalls

/-!
Paths into a tidy directory, looked up again. Names that nothing bars lead to what stands under
them, or are found to be missing, so the calls that ask about such a path succeed and tell that.
-/

namespace StorageScenario

open DiskPath ObjectPath Work

namespace Node

/-- A look-up of names that goes as far as they are there meets directories that may be
searched. -/
def Unbarred (node : Node) (names : List String) : Prop :=
  ∀ front name rest, names = front ++ name :: rest →
    ¬ FileTree.longestName < name.utf8ByteSize ∧
      ∀ directory, node.at? front = some directory →
        directory.isDirectory = true ∧ directory.allows .search = true

section Bars

variable {node child : Node} {name : String} {names rest : List String}

theorem unbarred_of_passable (passable : node.Passable names) : node.Unbarred names := by
  intro front name rest whole
  obtain ⟨short, directory, stands, holds⟩ := passable front name rest whole
  refine ⟨short, ?_⟩
  rintro other isOther
  cases stands.symm.trans isOther
  exact holds

theorem unbarred_tail (unbarred : node.Unbarred (name :: rest))
    (entry : node.entries.lookup name = some child) : child.Unbarred rest := by
  intro front other others whole
  have longer : name :: rest = (name :: front) ++ other :: others := by rw [whole, List.cons_append]
  obtain ⟨short, holds⟩ := unbarred _ _ _ longer
  refine ⟨short, ?_⟩
  intro directory stands
  apply holds
  rw [at?_cons, entry, Option.bind_some, stands]

theorem unbarred_front {more : List String} (unbarred : node.Unbarred (names ++ more)) :
    node.Unbarred names := by
  intro front name rest whole
  apply unbarred front name (rest ++ more)
  rw [whole, List.append_assoc, List.cons_append]

theorem Unbarred.later {before after : Node} {names : List String}
    (unbarred : before.Unbarred names)
    (earlier : ∀ {front name rest directory}, names = front ++ name :: rest →
      after.at? front = some directory →
      ∃ held, before.at? front = some held ∧ held.Unaltered directory) :
    after.Unbarred names := by
  intro front name rest whole
  obtain ⟨short, holds⟩ := unbarred front name rest whole
  refine ⟨short, ?_⟩
  intro directory stands
  obtain ⟨held, isHeld, unaltered⟩ := earlier whole stands
  obtain ⟨isDirectory, searchable⟩ := holds held isHeld
  exact ⟨unaltered.isDirectory.trans isDirectory, (unaltered.allows _).trans searchable⟩

end Bars

end Node

namespace FileTree

open Place

section Strides

variable (root : Node) {aim : Aim} {place : Place} {names : List String}

/-- Names that can be passed lead down to a directory, whatever is looked up there. -/
theorem stride_through (plain : aim = .target ∨ aim = .entry)
    (unbarred : place.node.Unbarred names) {node : Node}
    (isThere : place.node.at? names = some node) (isDirectory : node.isDirectory = true) :
    ∃ reached : Place, reached.names = place.names ++ names ∧ reached.node = node ∧
      ∀ rest, stride root aim place (names.map .down ++ rest) = stride root aim reached rest := by
  induction names generalizing place with
  | nil =>
      cases isThere
      exact ⟨place, (List.append_nil _).symm, rfl, fun rest => rfl⟩
  | cons name others ih =>
      obtain ⟨child, entry, below⟩ := Option.bind_eq_some_iff.mp isThere
      obtain ⟨short, here⟩ := unbarred [] name others rfl
      obtain ⟨_, searchable⟩ := here place.node rfl
      have childDirectory : child.isDirectory = true := by
        cases others with
        | nil =>
            cases below
            exact isDirectory
        | cons _ _ =>
            obtain ⟨_, inChild, _⟩ := Option.bind_eq_some_iff.mp below
            exact Node.directory_of_entry inChild
      obtain ⟨reached, named, isNode, same⟩ :=
        @ih (place.down name child) (Node.unbarred_tail unbarred entry) below
      refine ⟨reached, ?_, isNode, ?_⟩
      · rw [named, names_down, List.append_assoc, List.singleton_append]
      · intro rest
        have looked : lookUp aim place name (others.map .down ++ rest) = .ok (some child) := by
          rw [look_up_plain searchable plain, if_neg short, entry]
        rw [List.map_cons, List.cons_append, stride_met looked childDirectory, same]

/-- Names that lead nowhere are found to be missing, or to be free. -/
theorem stride_absent (plain : aim = .target ∨ aim = .entry)
    (unbarred : place.node.Unbarred names) (absent : place.node.at? names = none) :
    stride root aim place (names.map .down) = .error .notFound ∨
      ∃ directory name, stride root aim place (names.map .down) =
        .ok (.arrived (.vacant directory name)) := by
  induction names generalizing place with
  | nil => cases absent
  | cons name others ih =>
      obtain ⟨short, here⟩ := unbarred [] name others rfl
      obtain ⟨_, searchable⟩ := here place.node rfl
      have looked : lookUp aim place name (others.map .down) =
          .ok (place.node.entries.lookup name) := by
        rw [look_up_plain searchable plain, if_neg short]
      rw [Node.at?_cons] at absent
      cases entry : place.node.entries.lookup name with
      | none =>
          rw [entry] at looked
          cases others with
          | nil =>
              right
              refine ⟨place, name, ?_⟩
              rw [List.map_cons, stride, looked]
              rfl
          | cons _ _ =>
              left
              rw [List.map_cons, stride, looked]
              rfl
      | some child =>
          rw [entry] at looked absent
          have childDirectory : child.isDirectory = true := by
            cases others with
            | nil => cases absent
            | cons other further =>
                refine ((unbarred [name] other further rfl).2 child ?_).1
                rw [Node.at?_cons, entry, Option.bind_some, Node.at?_nil]
          rw [List.map_cons, stride_met looked childDirectory]
          exact @ih (place.down name child) (Node.unbarred_tail unbarred entry) absent

theorem stride_entry {name : String} {node : Node} (searchable : place.node.allows .search = true)
    (short : ¬ longestName < name.utf8ByteSize)
    (entry : place.node.entries.lookup name = some node) :
    stride root .entry place [.down name] = .ok (.arrived (.found (place.down name node))) := by
  have looked : lookUp .entry place name [] = .ok (some node) := by
    rw [look_up_plain searchable (Or.inr rfl), if_neg short, entry]
  rw [stride, looked]
  cases node <;> rfl

theorem walk_arrived {links : Nat} {steps : List DiskPath.Step} {spot : Spot}
    (strode : stride root aim place steps = .ok (.arrived spot)) :
    walk root aim links place steps = .ok spot := by
  rw [walk, strode]

theorem walk_error {links : Nat} {steps : List DiskPath.Step} {cause : FileFault}
    (strode : stride root aim place steps = .error cause) :
    walk root aim links place steps = .error cause := by
  rw [walk, strode]

end Strides

end FileTree

namespace Disk

open FileTree

section Asking

variable {path : String} {tree : FileTree} {aim : Aim}

theorem spot_of_fits (fits : PathFits path) (aim : Aim) (tree : FileTree) :
    spot path aim tree = check (tree.search aim (route path)) tree := by
  unfold spot
  rw [bind_of_ok (check_path_of_fits fits tree)]
  rfl

theorem locate_of_search (fits : PathFits path) {place : Place}
    (searched : tree.search aim (route path) = .ok (.found place)) :
    locate path aim tree = .ok place tree := by
  have looked := spot_of_fits fits aim tree
  rw [searched] at looked
  exact bind_of_ok looked

theorem locate_of_missing (fits : PathFits path)
    (missing : tree.search aim (route path) = .error .notFound ∨
      ∃ directory name, tree.search aim (route path) = .ok (.vacant directory name)) :
    locate path aim tree = .error (.fault .notFound) tree := by
  have looked := spot_of_fits fits aim tree
  rcases missing with searched | ⟨directory, name, searched⟩
  · rw [searched] at looked
    exact bind_of_error looked
  · rw [searched] at looked
    exact bind_of_ok looked

variable {way : List DiskPath.Step} {left : Nat} {base names : List String} {ground node : Node}

theorem metadata_of_names (fits : PathFits path) (isSteps : steps path = names.map .down)
    (unbarred : tree.root.Unbarred names) (isThere : tree.root.at? names = some node)
    (isDirectory : node.isDirectory = true) : metadata path tree = .ok node tree := by
  obtain ⟨reached, _, rfl, strode⟩ :=
    @stride_through tree.root .target ⟨tree.root, []⟩ names (Or.inl rfl) unbarred node isThere
      isDirectory
  have found : tree.search .target (route path) = .ok (.found reached) := by
    apply walk_arrived
    unfold route
    rw [isSteps]
    split
    · rw [strode [.asFolder], stride, stride]
    · rw [← List.append_nil (names.map _), strode [], stride]
  exact bind_of_ok (locate_of_search fits found)

variable (grounds : Grounds way left base tree ground)
include grounds

theorem locate_directory (into : GoesInto way names path) (fits : PathFits path)
    (unbarred : ground.Unbarred names) (isThere : ground.at? names = some node)
    (isDirectory : node.isDirectory = true) :
    ∃ place, locate path .target tree = .ok place tree ∧ place.names = base ++ names ∧
      place.node = node := by
  obtain ⟨start, rfl, rfl, same⟩ := grounds.search into (Or.inl rfl)
  obtain ⟨reached, named, isNode, strode⟩ :=
    stride_through tree.root (Or.inl rfl) unbarred isThere isDirectory
  refine ⟨reached, locate_of_search fits ?_, named, isNode⟩
  have arrives := strode []
  rw [List.append_nil, stride] at arrives
  rw [same]
  exact walk_arrived tree.root arrives

theorem metadata_of_directory (into : GoesInto way names path) (fits : PathFits path)
    (unbarred : ground.Unbarred names) (isThere : ground.at? names = some node)
    (isDirectory : node.isDirectory = true) : metadata path tree = .ok node tree := by
  obtain ⟨place, located, _, rfl⟩ :=
    locate_directory grounds into fits unbarred isThere isDirectory
  exact bind_of_ok located

theorem enter_directory (unbarred : ground.Unbarred names) (isThere : ground.at? names = some node)
    (isDirectory : node.isDirectory = true) (searchable : node.allows .search = true) :
    ∃ place, tree.enter (way ++ names.map .down) = .ok place ∧ place.names = base ++ names ∧
      place.node = node := by
  obtain ⟨start, _, rfl, rfl, same⟩ := grounds.place
  obtain ⟨reached, named, rfl, strode⟩ :=
    stride_through tree.root (Or.inl rfl) unbarred isThere isDirectory
  refine ⟨reached, ?_, named, rfl⟩
  have arrives := strode [.here]
  rw [stride_here searchable, stride] at arrives
  have found : tree.search .target (way ++ names.map .down ++ [.here]) = .ok (.found reached) := by
    rw [List.append_assoc, same _ _ (Or.inl rfl)]
    exact walk_arrived tree.root arrives
  unfold FileTree.enter
  rw [found]

variable {front : List String} {name : String}

theorem last_step_inside (into : GoesInto way (front ++ [name]) path) (fits : PathFits path)
    {directory : Node} (unbarred : ground.Unbarred (front ++ [name]))
    (isThere : ground.at? front = some directory) :
    ∃ place, lastStep path tree = .ok (some (place, .down name)) tree ∧
      place.names = base ++ front ∧ place.node = directory := by
  obtain ⟨isDirectory, searchable⟩ := (unbarred front name [] rfl).2 directory isThere
  obtain ⟨place, entered, named, isNode⟩ := enter_directory grounds
    (Node.unbarred_front unbarred) isThere isDirectory searchable
  refine ⟨place, ?_, named, isNode⟩
  have reversed :
      (steps path).reverse = Step.down name :: (way ++ front.map Step.down).reverse := by
    rw [steps_into into, List.map_append, ← List.append_assoc, List.reverse_append]
    rfl
  unfold lastStep
  rw [bind_of_ok (check_path_of_fits fits tree), reversed]
  dsimp only
  have got : (get : Disk FileTree) tree = .ok tree tree := rfl
  rw [bind_of_ok got, List.reverse_reverse, entered]
  rfl

theorem link_metadata_inside (into : GoesInto way (front ++ [name]) path) (fits : PathFits path)
    (unbarred : ground.Unbarred (front ++ [name])) :
    linkMetadata path tree =
      match ground.at? (front ++ [name]) with
      | some node => .ok node tree
      | none => .error (.fault .notFound) tree := by
  have asked : Aim.entry = .target ∨ (Aim.entry = .entry ∨ Aim.entry = .writing) ∧
      front ++ [name] ≠ [] := Or.inr ⟨Or.inl rfl, by simp⟩
  obtain ⟨start, rfl, rfl, same⟩ := grounds.search into asked
  cases isThere : start.node.at? (front ++ [name]) with
  | none =>
      refine bind_of_error (locate_of_missing fits ?_)
      rw [same]
      exact (stride_absent tree.root (Or.inr rfl) unbarred isThere).imp
        (walk_error tree.root)
        fun ⟨directory, last, strode⟩ => ⟨directory, last, walk_arrived tree.root strode⟩
  | some node =>
      obtain ⟨directory, inFront, entry⟩ := Option.bind_eq_some_iff.mp
        ((Node.at?_append _ _ _).symm.trans isThere)
      obtain ⟨short, holds⟩ := unbarred front name [] rfl
      obtain ⟨isDirectory, searchable⟩ := holds directory inFront
      obtain ⟨reached, _, rfl, strode⟩ := stride_through tree.root (Or.inr rfl)
        (Node.unbarred_front unbarred) inFront isDirectory
      rw [Node.at?_cons] at entry
      obtain ⟨child, isEntry, isNode⟩ := Option.bind_eq_some_iff.mp entry
      cases isNode
      have arrives := (strode [.down name]).trans
        (stride_entry tree.root searchable short isEntry)
      have found : tree.search .entry (route path) = .ok (.found (reached.down name node)) := by
        rw [same, List.map_append]
        exact walk_arrived tree.root arrives
      exact bind_of_ok (locate_of_search fits found)

end Asking

end Disk

end StorageScenario
