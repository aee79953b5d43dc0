import StorageScenario.Proofs.DirectoryCalls

/-!
What calls that make files and directories do inside a tidy directory. Making something
under names shows it there, with folders under all names above, and what was there before
keeps its kind. Two such changes in a row, the first of them on the way to the second, are
one.
-/

namespace StorageScenario

open DiskPath ObjectPath Work

namespace Node

def AllowsAll (node : Node) : Prop := ∀ permission, node.allows permission = true

def Changeable (node : Node) : Prop :=
  node.isDirectory = true ∧ node.allows .write = true ∧ node.allows .search = true

/-- A node of some kind has been made under names, with folders above it, and everything else is
as it was. -/
structure Created (names : List String) (kind : EntityKind) (before after : Node) : Prop where
  shown : ∀ others, after.kindAt? others =
    if others = names then some kind
    else if others <+: names then some .folder
    else before.kindAt? others
  kept : ∀ {others held}, before.kindAt? others = some held → after.kindAt? others = some held
  stays : before.StaysIn after
  unaltered : ∀ {others node}, others ≠ names → before.at? others = some node →
    ∃ later, after.at? others = some later ∧ node.Unaltered later
  /-- New directories keep nothing from their owner. -/
  fresh : ∀ {others node}, before.at? others = none → after.at? others = some node →
    node.isDirectory = true → node.AllowsAll
  /-- New entries are in directories that could take them. -/
  opened : ∀ {front name node}, before.at? (front ++ [name]) = none →
    after.at? (front ++ [name]) = some node →
    ∃ directory, after.at? front = some directory ∧ directory.Changeable
  passable : after.Passable names

/-- The same, where a directory that was there under the names is as it was, too. -/
structure Made (names : List String) (kind : EntityKind) (before after : Node) : Prop
    extends Created names kind before after where
  untouched : ∀ {node}, before.at? names = some node → node.isDirectory = true →
    ∃ later, after.at? names = some later ∧ node.Unaltered later

theorem kind_above {ground directory : Node} {names others : List String}
    (stands : ground.at? names = some directory) (isDirectory : directory.isDirectory = true)
    (above : others <+: names) : ground.kindAt? others = some .folder := by
  obtain ⟨rest, rfl⟩ := above
  rw [at?_append] at stands
  obtain ⟨middle, found, below⟩ := Option.bind_eq_some_iff.mp stands
  have middleDirectory : middle.isDirectory = true := by
    cases rest with
    | nil =>
        cases below
        exact isDirectory
    | cons name deeper =>
        obtain ⟨_, entry, _⟩ := Option.bind_eq_some_iff.mp below
        exact directory_of_entry entry
  simp [kindAt?, found, kind, middleDirectory]

theorem kind_at?_of_found {node held : Node} {names : List String}
    (found : node.at? names = some held) : node.kindAt? names = some held.kind := by
  unfold kindAt?
  rw [found, Option.map_some]

theorem kind_at?_eq_none_iff {node : Node} {names : List String} :
    node.kindAt? names = none ↔ node.at? names = none := by
  unfold kindAt?
  exact Option.map_eq_none_iff

theorem kind_eq_folder_iff {node : Node} : node.kind = .folder ↔ node.isDirectory = true := by
  unfold kind
  cases node.isDirectory <;> simp

section Making

variable {ground directory middle after : Node} {names : List String} {name : String}
  {kind : EntityKind}

theorem made_itself (stands : ground.at? names = some directory)
    (isDirectory : directory.isDirectory = true) (passable : ground.Passable names) :
    Made names .folder ground ground where
  shown others := by
    split
    · rename_i same
      exact kind_above stands isDirectory (same ▸ List.prefix_refl _)
    · split
      · rename_i above
        exact kind_above stands isDirectory above
      · rfl
  kept held := held
  stays := .itself ground
  unaltered _ isHeld := ⟨_, isHeld, .itself _⟩
  untouched isHeld _ := ⟨_, isHeld, .itself _⟩
  fresh isNew isHeld := by
    rw [isNew] at isHeld
    cases isHeld
  opened isNew isHeld := by
    rw [isNew] at isHeld
    cases isHeld
  passable := passable

theorem made_put_entry {child : Node} (stands : ground.at? names = some directory)
    (changeable : directory.Changeable) (free : directory.entries.lookup name = none)
    (empty : child.entries = []) (owned : child.isDirectory = true → child.AllowsAll)
    (passable : ground.Passable (names ++ [name])) (now : Instant) :
    Made (names ++ [name]) child.kind ground
      (ground.update (putEntry now name child) names) := by
  have isDirectory := changeable.1
  have kinds := kind_at?_put_entry stands isDirectory free empty now
  have stays : ground.StaysIn (ground.update (putEntry now name child) names) :=
    stays_in_update stands (stays_in_put_entry isDirectory free now)
  have notThere : ground.at? (names ++ [name]) = none := (at?_snoc stands name).trans free
  -- Only the new entry is new.
  have isEntry : ∀ {others node}, ground.at? others = none →
      (ground.update (putEntry now name child) names).at? others = some node →
      others = names ++ [name] ∧ node = child := by
    intro others node isNew isHeld
    have itsKind := kind_at?_of_found isHeld
    rw [kinds] at itsKind
    split at itsKind
    · rename_i same
      subst same
      rw [at?_update_append stands, at?_cons, put_entry_lookup isDirectory, if_pos rfl] at isHeld
      cases isHeld
      exact ⟨rfl, rfl⟩
    · rw [kind_at?_eq_none_iff.mpr isNew] at itsKind
      cases itsKind
  refine ⟨⟨?shown, ?kept, stays, ?unaltered, ?fresh, ?opened, passable.stays stays⟩,
    ?untouched⟩
  case shown =>
    intro others
    rw [kinds]
    split
    · rfl
    · rename_i elsewhere
      split
      · rename_i above
        have further := (List.prefix_concat_iff.mp above).resolve_left elsewhere
        exact kind_above stands isDirectory further
      · rfl
  case kept =>
    intro others held isHeld
    rw [kinds, if_neg]
    · exact isHeld
    · rintro rfl
      rw [kind_at?_eq_none_iff.mpr notThere] at isHeld
      cases isHeld
  case unaltered =>
    intro others node elsewhere isHeld
    exact later_of_remains (remains_put_entry stands isDirectory free empty now elsewhere) isHeld
  case untouched =>
    intro node isHeld _
    rw [notThere] at isHeld
    cases isHeld
  case fresh =>
    intro others node isNew isHeld nodeDirectory
    obtain ⟨rfl, rfl⟩ := isEntry isNew isHeld
    exact owned nodeDirectory
  case opened =>
    intro front last node isNew isHeld
    obtain ⟨same, _⟩ := isEntry isNew isHeld
    obtain ⟨rfl, _⟩ := List.append_inj' same rfl
    have unaltered := put_entry_unaltered isDirectory now name child
    refine ⟨_, at?_update stands, unaltered.isDirectory.trans isDirectory, ?_, ?_⟩
    · exact (unaltered.allows _).trans changeable.2.1
    · exact (unaltered.allows _).trans changeable.2.2

theorem made_rewrite {mode later : UInt32} {modified now : Instant} {content written : Bytes}
    (stands : ground.at? (names ++ [name]) = some (.file mode modified content))
    (passable : ground.Passable (names ++ [name])) :
    Made (names ++ [name]) .file ground
      (ground.update (fun _ => .file later now written) (names ++ [name])) := by
  have kinds : ∀ others, (ground.update (fun _ => .file later now written)
      (names ++ [name])).kindAt? others = ground.kindAt? others := kind_at?_rewrite stands
  have stays : ground.StaysIn
      (ground.update (fun _ => .file later now written) (names ++ [name])) :=
    stays_in_update stands (stays_in_file _ _ _ _)
  have nothingNew : ∀ {others node}, ground.at? others = none →
      (ground.update (fun _ => .file later now written) (names ++ [name])).at? others ≠
        some node := by
    intro others node isNew isHeld
    have itsKind := kind_at?_of_found isHeld
    rw [kinds, kind_at?_eq_none_iff.mpr isNew] at itsKind
    cases itsKind
  refine ⟨⟨?shown, fun isHeld => (kinds _).trans isHeld, stays, ?unaltered,
    fun isNew isHeld => absurd isHeld (nothingNew isNew),
    fun isNew isHeld => absurd isHeld (nothingNew isNew), passable.stays stays⟩, ?untouched⟩
  case shown =>
    intro others
    rw [kinds]
    split
    · rename_i same
      rw [same, kindAt?, stands]
      rfl
    · rename_i elsewhere
      split
      · rename_i above
        have further := (List.prefix_concat_iff.mp above).resolve_left elsewhere
        rw [at?_append] at stands
        obtain ⟨directory, found, below⟩ := Option.bind_eq_some_iff.mp stands
        obtain ⟨_, entry, _⟩ := Option.bind_eq_some_iff.mp below
        exact kind_above found (directory_of_entry entry) further
      · rfl
  case unaltered =>
    intro others node elsewhere isHeld
    refine later_of_remains (remains_elsewhere ?_) isHeld
    rintro ⟨deeper, rfl⟩
    rw [at?_append, stands, Option.bind_some] at isHeld
    cases deeper with
    | nil => exact elsewhere (List.append_nil _)
    | cons _ _ => cases isHeld
  case untouched =>
    intro node isHeld isDirectory
    cases stands.symm.trans isHeld
    cases isDirectory

theorem made_further (above : Made names .folder ground middle)
    (further : Made (names ++ [name]) kind middle after) :
    Made (names ++ [name]) kind ground after where
  shown others := by
    rw [further.shown]
    split
    · rfl
    · rename_i elsewhere
      split
      · rfl
      · rename_i outside
        have notAbove : ¬ others <+: names := fun inside =>
          outside (List.prefix_concat_iff.mpr (Or.inr inside))
        have notHere : others ≠ names := fun same => notAbove (same ▸ List.prefix_refl _)
        rw [above.shown, if_neg notHere, if_neg notAbove]
  kept isHeld := further.kept (above.kept isHeld)
  stays := above.stays.trans further.stays
  unaltered {others node} elsewhere isHeld := by
    have isBetween : ∃ between, middle.at? others = some between ∧ node.Unaltered between := by
      by_cases atNames : others = names
      · subst atNames
        have itsKind := above.kept (kind_at?_of_found isHeld)
        rw [above.shown, if_pos rfl] at itsKind
        exact above.untouched isHeld (kind_eq_folder_iff.mp (Option.some.inj itsKind).symm)
      · exact above.unaltered atNames isHeld
    obtain ⟨between, found, unaltered⟩ := isBetween
    obtain ⟨later, foundLater, unalteredLater⟩ := further.unaltered elsewhere found
    exact ⟨later, foundLater, unaltered.trans unalteredLater⟩
  untouched {node} isHeld isDirectory := by
    have apart : names ++ [name] ≠ names := by simp
    obtain ⟨between, found, unaltered⟩ := above.unaltered apart isHeld
    obtain ⟨later, foundLater, unalteredLater⟩ :=
      further.untouched found (unaltered.isDirectory.trans isDirectory)
    exact ⟨later, foundLater, unaltered.trans unalteredLater⟩
  fresh {others node} isNew isHeld isDirectory := by
    cases between : middle.at? others with
    | none => exact further.fresh between isHeld isDirectory
    | some held =>
        have itsKind := further.kept (kind_at?_of_found between)
        rw [kind_at?_of_found isHeld] at itsKind
        have heldDirectory : held.isDirectory = true :=
          kind_eq_folder_iff.mp
            ((Option.some.inj itsKind).symm.trans (kind_eq_folder_iff.mpr isDirectory))
        obtain ⟨later, found, _, allowed⟩ := further.stays.directories between heldDirectory
        cases found.symm.trans isHeld
        exact fun permission => allowed _ (above.fresh isNew between heldDirectory permission)
  opened {front last node} isNew isHeld := by
    cases between : middle.at? (front ++ [last]) with
    | none => exact further.opened between isHeld
    | some held =>
        obtain ⟨directory, found, isDirectory, writable, searchable⟩ :=
          above.opened isNew between
        obtain ⟨later, foundLater, still, allowed⟩ :=
          further.stays.directories found isDirectory
        exact ⟨later, foundLater, still, allowed _ writable, allowed _ searchable⟩
  passable := further.passable

end Making

end Node

namespace FileTree

/-- A tree with a tidy directory in it, which comes out of another one from which no directory
and no link has gone. -/
structure Grows (way : List DiskPath.Step) (left : Nat) (base : List String) (tree after : FileTree)
    (later : Node) : Prop extends Grounds way left base after later where
  stays : tree.root.StaysIn after.root

section Grows

variable {way : List DiskPath.Step} {left : Nat} {base names : List String}
  {tree between after : FileTree} {ground middle later node : Node} {change : Node → Node}

theorem Grounds.grow_nothing (grounds : Grounds way left base tree ground) :
    Grows way left base tree tree ground :=
  ⟨grounds, .itself _⟩

theorem Grows.trans (first : Grows way left base tree between middle)
    (second : Grows way left base between after later) : Grows way left base tree after later :=
  ⟨second.toGrounds, first.stays.trans second.stays⟩

/-- A change below a tidy directory leaves one in its place, if the way there is left. -/
theorem Grounds.altered (grounds : Grounds way left base tree ground)
    (leads : Leads (tree.update (base ++ names) change).root linkLimit [] way left base)
    (isDirectory : (ground.update change names).isDirectory = true)
    (tidy : ∀ node : Node, node.Tidy → (change node).Tidy) :
    Grounds way left base (tree.update (base ++ names) change) (ground.update change names) where
  leads := leads
  stands := by
    change (tree.root.update change (base ++ names)).at? base = _
    rw [Node.update_append, Node.at?_update grounds.stands]
  isDirectory := isDirectory
  tidy := Node.tidy_update tidy grounds.tidy names

theorem Grounds.update (grounds : Grounds way left base tree ground)
    (stands : ground.at? names = some node) (stays : node.StaysIn (change node))
    (tidy : ∀ node : Node, node.Tidy → (change node).Tidy) :
    Grows way left base tree (tree.update (base ++ names) change) (ground.update change names) := by
  have inTree : tree.root.at? (base ++ names) = some node := by
    rw [Node.at?_append, grounds.stands, Option.bind_some, stands]
  have staysInTree := Node.stays_in_update inTree stays
  obtain ⟨later, isLater, isDirectory, _⟩ :=
    (Node.stays_in_update stands stays).directories (Node.at?_nil _) grounds.isDirectory
  cases isLater
  exact ⟨grounds.altered (grounds.leads.stays staysInTree) isDirectory tidy, staysInTree⟩

end Grows

end FileTree

namespace Disk

open FileTree

section Steps

variable {tree after : FileTree} {path : String}

theorem last_step_ok {found : Option (Place × DiskPath.Step)}
    (ran : lastStep path tree = .ok found after) :
    found = none ∨ ∃ above last directory, steps path = above ++ [last] ∧
      tree.enter above = .ok directory ∧ found = some (directory, last) := by
  obtain ⟨_, between, checked, stepped⟩ := bind_ok_iff.mp ran
  cases (check_path_looks path).of_ok checked
  cases reversed : (steps path).reverse with
  | nil =>
      rw [reversed] at stepped
      cases stepped
      exact Or.inl rfl
  | cons last above =>
      rw [reversed] at stepped
      obtain ⟨_, _, got, looked⟩ := bind_ok_iff.mp stepped
      cases got
      obtain ⟨directory, _, entered, returned⟩ := bind_ok_iff.mp looked
      cases returned
      have split : steps path = above.reverse ++ [last] := by
        rw [← List.reverse_reverse (steps path), reversed, List.reverse_cons]
      exact Or.inr ⟨_, last, directory, split, check_ok entered, rfl⟩

theorem last_step_missing (ran : lastStep path tree = .error (.fault .notFound) after) :
    path = "" ∨ ∃ above last, steps path = above ++ [last] ∧
      tree.enter above = .error .notFound := by
  rcases bind_error_iff.mp ran with refused | ⟨_, between, checked, stepped⟩
  · exact Or.inl (check_path_missing refused)
  · cases (check_path_looks path).of_ok checked
    cases reversed : (steps path).reverse with
    | nil =>
        rw [reversed] at stepped
        cases stepped
    | cons last above =>
        have split : steps path = above.reverse ++ [last] := by
          rw [← List.reverse_reverse (steps path), reversed, List.reverse_cons]
        rw [reversed] at stepped
        rcases bind_error_iff.mp stepped with never | ⟨_, _, got, looked⟩
        · cases never
        · cases got
          rcases bind_error_iff.mp looked with failed | ⟨_, _, _, never⟩
          · exact Or.inr ⟨_, last, split, check_error failed⟩
          · cases never

theorem entry_ok {directory : Place} {name : String} {entry : Option Node}
    (ran : entry? directory name tree = .ok entry after) :
    entry = directory.node.entries.lookup name ∧ ¬ longestName < name.utf8ByteSize := by
  obtain ⟨_, short, same⟩ := look_up_ok (check_ok ran)
  exact ⟨same, short⟩

theorem demand_ok {node : Node} {permission : Permission} {value : Unit}
    (ran : demand node permission tree = .ok value after) : node.allows permission = true := by
  unfold demand at ran
  split at ran
  · assumption
  · cases ran

theorem add_entry_ok {directory : Place} {name : String} {node : Node} {value : Unit}
    (ran : addEntry directory name node tree = .ok value after) :
    after = tree.update directory.names (Node.putEntry tree.clock name node) ∧
      directory.node.allows .write = true ∧ directory.node.allows .search = true := by
  obtain ⟨_, _, demanded, changed⟩ := bind_ok_iff.mp ran
  obtain ⟨_, _, writable, searchable⟩ := bind_ok_iff.mp demanded
  cases (demand_looks _ _).of_ok writable
  cases (demand_looks _ _).of_ok searchable
  obtain ⟨_, _, got, changed⟩ := bind_ok_iff.mp changed
  cases got
  cases changed
  exact ⟨rfl, demand_ok writable, demand_ok searchable⟩

theorem demand_error {node : Node} {permission : Permission} {cause : IoError}
    (ran : demand node permission tree = .error cause after) :
    cause = .fault .permissionDenied ∧ after = tree := by
  unfold demand at ran
  split at ran
  · cases ran
  · cases ran
    exact ⟨rfl, rfl⟩

theorem add_entry_error {directory : Place} {name : String} {node : Node} {cause : IoError}
    (ran : addEntry directory name node tree = .error cause after) :
    cause = .fault .permissionDenied ∧ after = tree := by
  rcases bind_error_iff.mp ran with denied | ⟨_, between, _, changed⟩
  · rcases bind_error_iff.mp denied with unwritable | ⟨_, between, writable, unsearchable⟩
    · exact demand_error unwritable
    · cases (demand_looks _ _).of_ok writable
      exact demand_error unsearchable
  · rcases bind_error_iff.mp changed with never | ⟨_, _, _, never⟩
    · cases never
    · cases never

theorem write_file_ok {content : Bytes} (ran : writeFile path content tree = .ok () after) :
    (∃ directory name, tree.search .writing (route path) = .ok (.vacant directory name) ∧
      addEntry directory name (.file 0o644 tree.clock content) tree = .ok () after) ∨
    ∃ place mode modified old, tree.search .writing (route path) = .ok (.found place) ∧
      place.node = .file mode modified old ∧
      after = tree.update place.names fun _ => .file (rewrittenMode mode) tree.clock content := by
  obtain ⟨_, _, got, looking⟩ := bind_ok_iff.mp ran
  cases got
  obtain ⟨found, between, looked, written⟩ := bind_ok_iff.mp looking
  cases (spot_looks path .writing).of_ok looked
  have searched := spot_ok looked
  cases found with
  | vacant directory name => exact Or.inl ⟨directory, name, searched, written⟩
  | found place =>
      obtain ⟨node, above⟩ := place
      cases node with
      | directory _ _ _ => cases written
      | link _ _ => cases written
      | file mode modified old =>
          obtain ⟨_, between, demanded, changed⟩ := bind_ok_iff.mp written
          cases (demand_looks _ _).of_ok demanded
          cases changed
          exact Or.inr ⟨_, mode, modified, old, searched, rfl, rfl⟩

theorem fits_of_write_file {content : Bytes} (ran : writeFile path content tree = .ok () after) :
    PathFits path := by
  obtain ⟨_, _, got, looking⟩ := bind_ok_iff.mp ran
  obtain ⟨_, _, looked, _⟩ := bind_ok_iff.mp looking
  obtain ⟨_, _, allowed, _⟩ := bind_ok_iff.mp looked
  exact fits_of_check_path allowed

end Steps

/-- A new directory keeps nothing from its owner, whatever it takes over. -/
theorem new_directory_allows_all (taken : UInt32) (modified : Instant) :
    Node.AllowsAll (.directory (0o755 ||| taken) modified []) := by
  intro permission
  have owned : (0o755 : UInt32) &&& permission.bit ≠ 0 := by cases permission <;> decide
  have split : (0o755 ||| taken) &&& permission.bit =
      (0o755 &&& permission.bit) ||| (taken &&& permission.bit) := by
    rw [← UInt32.toBitVec_inj]
    simp only [UInt32.toBitVec_and, UInt32.toBitVec_or]
    ext i
    simp [Bool.and_or_distrib_right]
  refine decide_eq_true ?_
  change (0o755 ||| taken) &&& permission.bit ≠ 0
  rw [split, ne_eq, UInt32.or_eq_zero_iff]
  exact fun both => owned both.1

section Making

variable {way : List DiskPath.Step} {left : Nat} {base : List String} {tree after : FileTree}
  {ground : Node} {names : List String} {name path : String}

theorem add_entry_inside (grounds : Grounds way left base tree ground) {directory : Place}
    (named : directory.names = base ++ names) (stands : ground.at? names = some directory.node)
    (isDirectory : directory.node.isDirectory = true)
    (free : directory.node.entries.lookup name = none) (proper : IsName name) {child : Node}
    (empty : child.entries = []) (tidy : child.Tidy)
    (owned : child.isDirectory = true → child.AllowsAll)
    (passable : ground.Passable (names ++ [name])) {value : Unit}
    (ran : addEntry directory name child tree = .ok value after) :
    ∃ later, Grows way left base tree after later ∧
      Node.Made (names ++ [name]) child.kind ground later := by
  obtain ⟨rfl, writable, searchable⟩ := add_entry_ok ran
  rw [named]
  refine ⟨_, grounds.update stands ?_ ?_, Node.made_put_entry stands
    ⟨isDirectory, writable, searchable⟩ free empty owned passable _⟩
  · exact Node.stays_in_put_entry isDirectory free _
  · intro node isTidy
    exact Node.tidy_put_entry isTidy tidy proper _

theorem make_directory_inside (grounds : Grounds way left base tree ground)
    (into : GoesInto way (names ++ [name]) path) {value : Unit}
    (ran : makeDirectory path tree = .ok value after) :
    ∃ later, Grows way left base tree after later ∧
      Node.Made (names ++ [name]) .folder ground later := by
  obtain ⟨found, between, stepped, made⟩ := bind_ok_iff.mp ran
  cases (last_step_looks path).of_ok stepped
  rcases last_step_ok stepped with rfl | ⟨above, last, directory, split, entered, rfl⟩
  · cases made
  · have whole := steps_into into
    rw [List.map_append, List.map_singleton, ← List.append_assoc, split] at whole
    obtain ⟨rfl, isLast⟩ := List.append_inj' whole rfl
    cases isLast
    obtain ⟨named, stands, isDirectory, searchable, passable⟩ := grounds.enter entered
    obtain ⟨entry, later, looked, added⟩ := bind_ok_iff.mp made
    cases (check_looks _).of_ok looked
    obtain ⟨isEntry, short⟩ := entry_ok looked
    cases entry with
    | some child => cases added
    | none =>
        obtain ⟨_, _, got, added⟩ := bind_ok_iff.mp added
        cases got
        refine add_entry_inside grounds named stands isDirectory isEntry.symm (last_into into).1
          rfl ?_ (fun _ => new_directory_allows_all _ _)
          (Node.passable_snoc passable stands isDirectory searchable short) added
        exact .directory (by simp) (by simp) (by simp)

theorem make_directory_error {cause : IoError}
    (ran : makeDirectory path tree = .error cause after) : after = tree := by
  rcases bind_error_iff.mp ran with failed | ⟨found, between, stepped, failed⟩
  · exact (last_step_looks path).of_error failed
  · cases (last_step_looks path).of_ok stepped
    split at failed
    · rcases bind_error_iff.mp failed with missed | ⟨entry, _, looked, failed⟩
      · exact (check_looks _).of_error missed
      · cases (check_looks _).of_ok looked
        cases entry with
        | some child =>
            cases failed
            rfl
        | none =>
            rcases bind_error_iff.mp failed with never | ⟨_, _, got, failed⟩
            · cases never
            · cases got
              exact (add_entry_error failed).2
    · cases failed
      rfl

theorem make_or_keep_ok (ran : makeOrKeep path tree = .ok () after) :
    makeDirectory path tree = .ok () after ∨
      isDirectory path tree = .ok true tree ∧ after = tree := by
  unfold makeOrKeep at ran
  cases made : makeDirectory path tree with
  | ok value between =>
      rw [made] at ran
      cases ran
      exact Or.inl rfl
  | error cause between =>
      rw [made] at ran
      cases make_directory_error made
      dsimp only at ran
      cases asked : isDirectory path tree with
      | error _ later =>
          rw [asked] at ran
          cases ran
      | ok found later =>
          rw [asked] at ran
          cases (is_directory_looks path).of_ok asked
          cases found with
          | false => cases ran
          | true =>
              cases ran
              exact Or.inr ⟨rfl, rfl⟩

theorem make_or_keep_inside (grounds : Grounds way left base tree ground)
    (into : GoesInto way (names ++ [name]) path)
    (ran : makeOrKeep path tree = .ok () after) :
    ∃ later, Grows way left base tree after later ∧
      Node.Made (names ++ [name]) .folder ground later := by
  rcases make_or_keep_ok ran with made | ⟨asked, rfl⟩
  · exact make_directory_inside grounds into made
  · obtain ⟨node, stands, isDirectory, passable⟩ := is_directory_inside grounds into asked
    exact ⟨ground, grounds.grow_nothing, Node.made_itself stands isDirectory passable⟩

theorem fits_of_make_directory {value : Unit}
    (ran : makeDirectory path tree = .ok value after) : PathFits path := by
  obtain ⟨_, _, stepped, _⟩ := bind_ok_iff.mp ran
  obtain ⟨_, _, checked, _⟩ := bind_ok_iff.mp stepped
  exact fits_of_check_path checked

theorem fits_of_make_or_keep (ran : makeOrKeep path tree = .ok () after) : PathFits path := by
  rcases make_or_keep_ok ran with made | ⟨asked, _⟩
  · exact fits_of_make_directory made
  · unfold isDirectory at asked
    cases read : metadata path tree with
    | ok node between =>
        obtain ⟨_, _, located, _⟩ := bind_ok_iff.mp read
        exact fits_of_locate located
    | error cause between =>
        rw [read] at asked
        cases asked

theorem make_or_keep_empty : makeOrKeep "" tree ≠ .ok () after :=
  fun ran => (fits_of_make_or_keep ran).2.1 rfl

/-- Making the first directory of a lineage takes the others only where it is missing. -/
theorem make_lineage_cons {above : List String}
    (ran : makeLineage (path :: above) tree = .ok () after) :
    makeOrKeep path tree = .ok () after ∨
      makeDirectory path tree = .error (.fault .notFound) tree ∧
        ∃ between, makeLineage above tree = .ok () between ∧
          makeOrKeep path between = .ok () after := by
  unfold makeLineage at ran
  cases made : makeDirectory path tree with
  | ok value between =>
      rw [made] at ran
      left
      unfold makeOrKeep
      rw [made]
      exact ran
  | error cause between =>
      cases make_directory_error made
      rw [made] at ran
      split at ran
      · rename_i impossible
        cases impossible
      · rename_i missing
        cases missing
        obtain ⟨_, between, others, kept⟩ := bind_ok_iff.mp ran
        exact Or.inr ⟨rfl, between, others, kept⟩
      · rename_i failed
        cases failed
        exact Or.inl ran

theorem fits_of_make_lineage {above : List String}
    (ran : makeLineage (path :: above) tree = .ok () after) : PathFits path := by
  rcases make_lineage_cons ran with kept | ⟨_, _, _, kept⟩
  · exact fits_of_make_or_keep kept
  · exact fits_of_make_or_keep kept

theorem enter_of_leads {goal : List String} {above : List DiskPath.Step} {last : DiskPath.Step}
    (leads : Leads tree.root linkLimit [] (above ++ [last]) left goal)
    (moves : last ≠ .asFolder) :
    ∃ between directory, tree.enter above = .ok directory ∧ Place.SitsIn tree.root directory ∧
      Leads tree.root between directory.names [last] left goal := by
  obtain ⟨between, middle, before, behind⟩ := leads.split
  obtain ⟨directory, sits, rfl, same⟩ := before.walk .root rfl
  refine ⟨between, directory, ?_, sits, behind⟩
  obtain ⟨node, stands, _, searchable⟩ := behind.enterable moves
  rw [Place.sits_at sits] at stands
  cases stands
  have found : tree.search .target (above ++ [.here]) = .ok (.found directory) := by
    rw [search, same _ _ (Or.inl rfl), walk, stride_here searchable, stride]
  unfold FileTree.enter
  rw [found]

theorem last_step_moves {above : List DiskPath.Step} {last : DiskPath.Step}
    (split : steps path = above ++ [last]) : last ≠ .asFolder :=
  steps_move (split ▸ List.mem_append_right above List.mem_cons_self)

theorem make_directory_taken {goal : List String}
    (leads : Leads tree.root linkLimit [] (steps path) left goal) :
    makeDirectory path tree ≠ .ok () after := by
  intro ran
  obtain ⟨found, between, stepped, made⟩ := bind_ok_iff.mp ran
  cases (last_step_looks path).of_ok stepped
  rcases last_step_ok stepped with rfl | ⟨above, last, directory, split, entered, rfl⟩
  · cases made
  · rw [split] at leads
    obtain ⟨_, _, same, sits, behind⟩ := enter_of_leads leads (last_step_moves split)
    cases entered.symm.trans same
    cases last with
    | down name =>
        obtain ⟨child, stands⟩ := behind.entry
        rw [Node.at?_snoc (Place.sits_at sits)] at stands
        obtain ⟨entry, _, looked, added⟩ := bind_ok_iff.mp made
        rw [(entry_ok looked).1, stands] at added
        cases added
    | here => cases made
    | up => cases made
    | asFolder => cases made

theorem make_directory_not_missing {goal : List String}
    (leads : Leads tree.root linkLimit [] (steps path) left goal) (nonempty : path ≠ "") :
    makeDirectory path tree ≠ .error (.fault .notFound) after := by
  intro ran
  rcases bind_error_iff.mp ran with failed | ⟨found, between, stepped, failed⟩
  · rcases last_step_missing failed with isEmpty | ⟨above, last, split, missing⟩
    · exact nonempty isEmpty
    · rw [split] at leads
      obtain ⟨_, _, same, _⟩ := enter_of_leads leads (last_step_moves split)
      cases missing.symm.trans same
  · split at failed
    · rcases bind_error_iff.mp failed with missed | ⟨entry, _, looked, failed⟩
      · exact look_up_not_missing (check_error missed)
      · cases entry with
        | some child => cases failed
        | none =>
            rcases bind_error_iff.mp failed with never | ⟨_, _, _, failed⟩
            · cases never
            · cases (add_entry_error failed).1
    · cases failed

theorem make_lineage_there {goal : List String} {above : List String}
    (leads : Leads tree.root linkLimit [] (steps path) left goal)
    (ran : makeLineage (path :: above) tree = .ok () after) : after = tree := by
  rcases make_lineage_cons ran with kept | ⟨missing, between, _, kept⟩
  · rcases make_or_keep_ok kept with made | ⟨_, unchanged⟩
    · exact absurd made (make_directory_taken leads)
    · exact unchanged
  · have nonempty : path ≠ "" := by
      rintro rfl
      exact make_or_keep_empty kept
    exact absurd missing (make_directory_not_missing leads nonempty)

theorem ancestors_head (depth : Nat) (path : String) :
    ∃ above, ancestors depth path = path :: above := by
  cases depth with
  | zero => exact ⟨[], rfl⟩
  | succ fewer =>
      rw [ancestors]
      cases parent? path with
      | none => exact ⟨[], rfl⟩
      | some parent => exact ⟨_, rfl⟩

/-- Above a path inside, directories are made that are all in the directory, if any. -/
theorem make_parents_inside (grounds : Grounds way left base tree ground)
    (into : GoesInto way (names ++ [name]) path) {parent : String}
    (isParent : parent? path = some parent) {depth : Nat}
    (further : ∀ {front last}, names = front ++ [last] →
      GoesInto way (front ++ [last]) parent →
      ∃ later, Grows way left base tree after later ∧
        Node.Made (front ++ [last]) .folder ground later)
    (ran : makeLineage (ancestors depth parent) tree = .ok () after) :
    ∃ later, Grows way left base tree after later ∧ Node.Made names .folder ground later := by
  obtain ⟨same, found, inside, outside⟩ := parent_into into
  cases isParent.symm.trans found
  rcases names.eq_nil_or_concat' with rfl | ⟨front, last, rfl⟩
  · obtain ⟨idle, isWay⟩ := outside rfl
    obtain ⟨above, isFirst⟩ := ancestors_head depth parent
    have leads := grounds.leads
    rw [isWay] at leads
    rw [isFirst] at ran
    cases make_lineage_there leads.without_staying ran
    exact ⟨ground, grounds.grow_nothing, Node.made_itself (Node.at?_nil ground)
      grounds.isDirectory (Node.passable_nil ground)⟩
  · exact further rfl (inside (by simp))

theorem make_lineage_inside (grounds : Grounds way left base tree ground)
    (into : GoesInto way (names ++ [name]) path) {depth : Nat}
    (ran : makeLineage (ancestors depth path) tree = .ok () after) :
    ∃ later, Grows way left base tree after later ∧
      Node.Made (names ++ [name]) .folder ground later := by
  induction depth generalizing path names name after with
  | zero =>
      rcases make_lineage_cons ran with kept | ⟨_, between, others, kept⟩
      · exact make_or_keep_inside grounds into kept
      · cases others
        exact make_or_keep_inside grounds into kept
  | succ fewer ih =>
      obtain ⟨parent, isParent, _⟩ := parent_into into
      rw [ancestors, isParent] at ran
      rcases make_lineage_cons ran with kept | ⟨_, between, others, kept⟩
      · exact make_or_keep_inside grounds into kept
      · obtain ⟨middle, groundsBetween, above⟩ := make_parents_inside grounds into isParent
          (fun _ intoParent => ih intoParent others) others
        obtain ⟨later, groundsAfter, made⟩ :=
          make_or_keep_inside groundsBetween.toGrounds into kept
        exact ⟨later, groundsBetween.trans groundsAfter, Node.made_further above made⟩

theorem write_file_inside (grounds : Grounds way left base tree ground)
    (into : GoesInto way (names ++ [name]) path) {content : Bytes}
    (ran : writeFile path content tree = .ok () after) :
    ∃ later, Grows way left base tree after later ∧
      Node.Made (names ++ [name]) .file ground later := by
  obtain ⟨start, rfl, rfl, same⟩ := grounds.search into (Or.inr ⟨Or.inr rfl, by simp⟩)
  have inside : ∀ {spot}, tree.search .writing (route path) = .ok spot →
      start.node.Passable (names ++ [name]) ∧ spot.IsBelow start (names ++ [name]) := by
    intro spot searched
    rw [same, ← List.append_nil ((names ++ [name]).map Step.down)] at searched
    obtain ⟨passable, below, _⟩ :=
      walk_below (by decide) (Or.inl rfl) grounds.tidy grounds.isDirectory searched
    exact ⟨passable, below⟩
  rcases write_file_ok ran with ⟨directory, last, searched, added⟩ |
    ⟨place, mode, modified, old, searched, isFile, rfl⟩
  · obtain ⟨passable, front, split, named, stands, isDirectory, free⟩ := inside searched
    obtain ⟨rfl, isLast⟩ := List.append_inj' split rfl
    cases isLast
    exact add_entry_inside grounds named stands isDirectory free (last_into into).1 rfl
      (.file _ _ _) (fun no => nomatch no) passable added
  · obtain ⟨passable, named, stands⟩ := inside searched
    rw [isFile] at stands
    rw [named]
    refine ⟨_, grounds.update stands ?_ fun _ _ => .file _ _ _,
      Node.made_rewrite stands passable⟩
    exact Node.stays_in_file _ _ _ _

end Making

end Disk

end StorageScenario
