import StorageScenario.Location
import StorageScenario.Proofs.TreeWalk
import StorageScenario.Table

/-!
Changes inside a file tree. A change at one place leaves what kinds of nodes stand
elsewhere, so a new entry shows under its own names alone. Wherever a free name is taken,
every directory and every link of the whole tree stays.
-/

namespace StorageScenario

namespace Node

def kind (node : Node) : EntityKind := if node.isDirectory then .folder else .file

def kindAt? (node : Node) (names : List String) : Option EntityKind := (node.at? names).map kind

theorem kind_at?_cons (node : Node) (name : String) (rest : List String) :
    node.kindAt? (name :: rest) =
      (node.entries.lookup name).bind fun child => child.kindAt? rest := by
  unfold kindAt?
  rw [at?_cons, Option.map_bind]
  rfl

theorem kind_at?_append (node : Node) (first second : List String) :
    node.kindAt? (first ++ second) =
      (node.at? first).bind fun middle => middle.kindAt? second := by
  unfold kindAt?
  rw [at?_append, Option.map_bind]
  rfl

section Entries

variable (entries : List (String × Node)) (name other : String)

theorem lookup_replaced (change : Node → Node) :
    (entries.map fun entry =>
        if entry.1 = name then (entry.1, change entry.2) else entry).lookup other =
      (entries.lookup other).map fun child => if other = name then change child else child := by
  induction entries with
  | nil => rfl
  | cons head rest ih =>
      rw [List.map_cons, Table.lookup_entry, Table.lookup_entry, ih]
      by_cases atHead : other = head.1
      · subst atHead
        by_cases changed : head.1 = name <;> simp [changed]
      · by_cases changed : head.1 = name
        · rw [if_pos changed, if_neg atHead, if_neg atHead]
        · rw [if_neg changed, if_neg atHead, if_neg atHead]

theorem lookup_put (child : Node) :
    ((entries.filter fun entry => entry.1 ≠ name) ++ [(name, child)]).lookup other =
      if other = name then some child else entries.lookup other := by
  rw [List.lookup_append, Table.lookup_without]
  by_cases same : other = name
  · simp [same]
  · have apart : (other == name) = false := beq_eq_false_iff_ne.mpr same
    simp [same, List.lookup_cons, apart]

end Entries

section Updates

variable {root node : Node} {change : Node → Node} {names : List String}

theorem lookup_update (root : Node) (name : String) (rest : List String) (other : String) :
    (root.update change (name :: rest)).entries.lookup other =
      (root.entries.lookup other).map fun child =>
        if other = name then child.update change rest else child := by
  cases root with
  | directory mode modified entries => exact lookup_replaced entries name other _
  | file _ _ _ => rfl
  | link _ _ => rfl

theorem update_below (root : Node) (name : String) (rest : List String) :
    (root.update change (name :: rest)).isDirectory = root.isDirectory ∧
      (root.update change (name :: rest)).mode = root.mode := by
  cases root <;> exact ⟨rfl, rfl⟩

theorem update_append (root : Node) (first second : List String) :
    root.update change (first ++ second) = root.update (update change second) first := by
  induction first generalizing root with
  | nil => rfl
  | cons name rest ih =>
      cases root with
      | directory mode modified entries => simp only [List.cons_append, update, ih]
      | file _ _ _ => rfl
      | link _ _ => rfl

theorem at?_update (found : root.at? names = some node) :
    (root.update change names).at? names = some (change node) := by
  induction names generalizing root with
  | nil =>
      cases found
      rfl
  | cons name rest ih =>
      obtain ⟨child, entry, below⟩ := Option.bind_eq_some_iff.mp found
      rw [at?_cons, lookup_update, entry, Option.map_some, if_pos rfl, Option.bind_some]
      exact ih below

theorem kind_at?_update (found : root.at? names = some node) (others : List String) :
    (root.update change names).kindAt? others =
      if names <+: others then (change node).kindAt? (others.drop names.length)
      else root.kindAt? others := by
  induction names generalizing root others with
  | nil =>
      cases found
      simp [update]
  | cons name rest ih =>
      obtain ⟨child, entry, below⟩ := Option.bind_eq_some_iff.mp found
      cases others with
      | nil => simp [kindAt?, kind, update_below]
      | cons other deeper =>
          rw [kind_at?_cons, kind_at?_cons, lookup_update]
          by_cases same : other = name
          · subst same
            simp [entry, ih below]
          · simp [same, Ne.symm same]

theorem at?_update_append (found : root.at? names = some node) (deeper : List String) :
    (root.update change names).at? (names ++ deeper) = (change node).at? deeper := by
  rw [at?_append, at?_update found, Option.bind_some]

/-- A file or link that is the same, or a directory that allows the same. -/
structure Unaltered (before after : Node) : Prop where
  isDirectory : after.isDirectory = before.isDirectory
  mode : after.mode = before.mode
  same : before.isDirectory = false → after = before

theorem Unaltered.itself (node : Node) : node.Unaltered node := ⟨rfl, rfl, fun _ => rfl⟩

theorem Unaltered.trans {first second third : Node} (before : first.Unaltered second)
    (behind : second.Unaltered third) : first.Unaltered third where
  isDirectory := behind.isDirectory.trans before.isDirectory
  mode := behind.mode.trans before.mode
  same isFile := by
    have unchanged := before.same isFile
    rw [← unchanged]
    exact behind.same (before.isDirectory.trans isFile)

theorem Unaltered.allows {before after : Node} (unaltered : before.Unaltered after)
    (permission : Permission) : after.allows permission = before.allows permission := by
  unfold Node.allows
  rw [unaltered.mode]

/-- What is found before and after a change: nothing both times, or a node that is not altered. -/
abbrev Remains (before after : Option Node) : Prop := Option.Rel Unaltered before after

theorem remains_itself (found : Option Node) : Remains found found := by
  cases found with
  | none => exact .none
  | some node => exact .some (.itself node)

theorem later_of_remains {before after : Option Node} {held : Node} (remains : Remains before after)
    (isHeld : before = some held) : ∃ later, after = some later ∧ held.Unaltered later := by
  subst isHeld
  cases remains with
  | some unaltered => exact ⟨_, rfl, unaltered⟩

theorem earlier_of_remains {before after : Option Node} {later : Node}
    (remains : Remains before after) (isLater : after = some later) :
    ∃ held, before = some held ∧ held.Unaltered later := by
  subst isLater
  cases remains with
  | some unaltered => exact ⟨_, rfl, unaltered⟩

theorem unaltered_above (root : Node) (name : String) (rest : List String) :
    root.Unaltered (root.update change (name :: rest)) where
  isDirectory := (update_below root name rest).1
  mode := (update_below root name rest).2
  same isFile := by
    cases root with
    | directory _ _ _ => cases isFile
    | file _ _ _ => rfl
    | link _ _ => rfl

/-- Apart from what is under its names a change alters nothing. -/
theorem remains_elsewhere {others : List String} (elsewhere : ¬ names <+: others) :
    Remains (root.at? others) ((root.update change names).at? others) := by
  induction names generalizing root others with
  | nil => exact absurd List.nil_prefix elsewhere
  | cons name rest ih =>
      cases others with
      | nil => exact .some (unaltered_above root name rest)
      | cons other deeper =>
          rw [at?_cons, at?_cons, lookup_update]
          cases root.entries.lookup other with
          | none => exact .none
          | some child =>
              rw [Option.map_some, Option.bind_some, Option.bind_some]
              by_cases same : other = name
              · rw [if_pos same]
                apply ih
                intro inside
                exact elsewhere (List.cons_prefix_cons.mpr ⟨same.symm, inside⟩)
              · rw [if_neg same]
                exact remains_itself _

/-- Directories and links stay in a directory that stays, if they do in all its entries. -/
theorem stays_in_of_entries {after : Node} (isDirectory : root.isDirectory = true)
    (still : after.isDirectory = true) (allowed : root.AllowedIn after)
    (entries : ∀ {name child}, root.entries.lookup name = some child →
      ∃ later, after.entries.lookup name = some later ∧ child.StaysIn later) :
    root.StaysIn after where
  directories {names held} isHeld heldDirectory := by
    cases names with
    | nil =>
        cases isHeld
        exact ⟨after, rfl, still, allowed⟩
    | cons name rest =>
        obtain ⟨child, entry, below⟩ := Option.bind_eq_some_iff.mp isHeld
        obtain ⟨later, laterEntry, stays⟩ := entries entry
        rw [at?_cons, laterEntry, Option.bind_some]
        exact stays.directories below heldDirectory
  links {names modified target} isHeld := by
    cases names with
    | nil =>
        cases isHeld
        cases isDirectory
    | cons name rest =>
        obtain ⟨child, entry, below⟩ := Option.bind_eq_some_iff.mp isHeld
        obtain ⟨later, laterEntry, stays⟩ := entries entry
        rw [at?_cons, laterEntry, Option.bind_some]
        exact stays.links below

theorem StaysIn.itself (node : Node) : node.StaysIn node :=
  ⟨fun isHeld isDirectory => ⟨_, isHeld, isDirectory, fun _ => id⟩, id⟩

theorem StaysIn.trans {first second third : Node} (before : first.StaysIn second)
    (behind : second.StaysIn third) : first.StaysIn third where
  directories isHeld isDirectory := by
    obtain ⟨middle, found, still, allowed⟩ := before.directories isHeld isDirectory
    obtain ⟨later, foundLater, stillLater, allowedLater⟩ := behind.directories found still
    exact ⟨later, foundLater, stillLater, fun _ has => allowedLater _ (allowed _ has)⟩
  links isHeld := behind.links (before.links isHeld)

theorem stays_in_update (found : root.at? names = some node) (stays : node.StaysIn (change node)) :
    root.StaysIn (root.update change names) := by
  induction names generalizing root with
  | nil =>
      cases found
      exact stays
  | cons name rest ih =>
      obtain ⟨child, entry, below⟩ := Option.bind_eq_some_iff.mp found
      have isDirectory := directory_of_entry entry
      obtain ⟨sameKind, sameMode⟩ := update_below root name rest
      refine stays_in_of_entries isDirectory (sameKind.trans isDirectory)
        (allowed_of_mode sameMode) ?_
      intro other held isHeld
      rw [lookup_update, isHeld, Option.map_some]
      by_cases same : other = name
      · subst same
        cases isHeld.symm.trans entry
        rw [if_pos rfl]
        exact ⟨_, rfl, ih below⟩
      · rw [if_neg same]
        exact ⟨held, rfl, .itself held⟩

end Updates

section Growth

variable {root directory child : Node} {names : List String} {name : String}

theorem put_entry_lookup (isDirectory : directory.isDirectory = true) (now : Instant)
    (name : String) (child : Node) (other : String) :
    (putEntry now name child directory).entries.lookup other =
      if other = name then some child else directory.entries.lookup other := by
  obtain ⟨modified, same⟩ := eq_directory isDirectory
  rw [same]
  exact lookup_put directory.entries name other child

theorem put_entry_directory (isDirectory : directory.isDirectory = true) (now : Instant)
    (name : String) (child : Node) :
    (putEntry now name child directory).isDirectory = true ∧
      (putEntry now name child directory).mode = directory.mode := by
  obtain ⟨modified, same⟩ := eq_directory isDirectory
  rw [same]
  exact ⟨rfl, rfl⟩

theorem stays_in_put_entry (isDirectory : directory.isDirectory = true)
    (free : directory.entries.lookup name = none) (now : Instant) :
    directory.StaysIn (putEntry now name child directory) := by
  obtain ⟨still, sameMode⟩ := put_entry_directory isDirectory now name child
  refine stays_in_of_entries isDirectory still (allowed_of_mode sameMode) ?_
  intro other held isHeld
  have apart : other ≠ name := by
    rintro rfl
    cases isHeld.symm.trans free
  rw [put_entry_lookup isDirectory, if_neg apart]
  exact ⟨held, isHeld, .itself held⟩

theorem put_entry_unaltered (isDirectory : directory.isDirectory = true) (now : Instant)
    (name : String) (child : Node) : directory.Unaltered (putEntry now name child directory) where
  isDirectory := (put_entry_directory isDirectory now name child).1.trans isDirectory.symm
  mode := (put_entry_directory isDirectory now name child).2
  same isFile := by
    rw [isDirectory] at isFile
    cases isFile

theorem remains_put_entry (found : root.at? names = some directory)
    (isDirectory : directory.isDirectory = true) (free : directory.entries.lookup name = none)
    (empty : child.entries = []) (now : Instant) {others : List String}
    (elsewhere : others ≠ names ++ [name]) :
    Remains (root.at? others) ((root.update (putEntry now name child) names).at? others) := by
  by_cases inside : names <+: others
  · obtain ⟨deeper, rfl⟩ := inside
    rw [at?_update_append found, at?_append, found, Option.bind_some]
    cases deeper with
    | nil => exact .some (put_entry_unaltered isDirectory now name child)
    | cons other rest =>
        rw [at?_cons, at?_cons, put_entry_lookup isDirectory]
        by_cases same : other = name
        · subst same
          rw [if_pos rfl, free]
          cases rest with
          | nil => exact absurd rfl elsewhere
          | cons _ _ =>
              rw [Option.bind_some, at?_cons, empty]
              exact .none
        · rw [if_neg same]
          exact remains_itself _
  · exact remains_elsewhere inside

theorem kind_at?_put_entry (found : root.at? names = some directory)
    (isDirectory : directory.isDirectory = true) (free : directory.entries.lookup name = none)
    (empty : child.entries = []) (now : Instant) (others : List String) :
    (root.update (putEntry now name child) names).kindAt? others =
      if others = names ++ [name] then some child.kind else root.kindAt? others := by
  rw [kind_at?_update found]
  by_cases inside : names <+: others
  · obtain ⟨deeper, rfl⟩ := inside
    rw [if_pos (List.prefix_append _ _), List.drop_left, kind_at?_append, found, Option.bind_some]
    simp only [List.append_cancel_left_eq]
    cases deeper with
    | nil =>
        have still := (put_entry_directory isDirectory now name child).1
        simp [kindAt?, kind, still, isDirectory]
    | cons other deeper =>
        rw [kind_at?_cons, kind_at?_cons, put_entry_lookup isDirectory]
        by_cases same : other = name
        · subst same
          rw [if_pos rfl, free]
          cases deeper with
          | nil => simp [kindAt?]
          | cons _ _ => simp [kind_at?_cons, empty]
        · simp [same]
  · rw [if_neg inside, if_neg]
    rintro rfl
    exact inside (List.prefix_append _ _)

theorem stays_in_file (mode : UInt32) (modified : Instant) (content : Bytes) (after : Node) :
    (file mode modified content).StaysIn after := by
  constructor
  · intro names held isHeld isDirectory
    cases names with
    | nil =>
        cases isHeld
        cases isDirectory
    | cons _ _ => cases isHeld
  · intro names _ _ isHeld
    cases names <;> cases isHeld

theorem kind_at?_rewrite {mode later : UInt32} {modified now : Instant} {content written : Bytes}
    (found : root.at? names = some (.file mode modified content)) (others : List String) :
    (root.update (fun _ => .file later now written) names).kindAt? others =
      root.kindAt? others := by
  rw [kind_at?_update found]
  split
  · rename_i inside
    obtain ⟨deeper, rfl⟩ := inside
    rw [List.drop_left, kind_at?_append, found, Option.bind_some]
    cases deeper <;> rfl
  · rfl

end Growth

end Node

end StorageScenario
