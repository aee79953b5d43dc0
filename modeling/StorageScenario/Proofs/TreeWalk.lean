import StorageScenario.FileTree.Lookup

/-!
Look-ups in a file tree. The places that a look-up meets are reached from the root by
going down, so each of them is given by the names on its way. Steps that lead from one
directory to another do so whatever is looked up behind them, and as long as the
directories and links on their way stay, also after the tree has changed.
-/

namespace StorageScenario

open DiskPath

namespace Node

def at? : Node → List String → Option Node
  | node, [] => some node
  | node, name :: rest => (node.entries.lookup name).bind fun child => child.at? rest

@[simp]
theorem at?_nil (node : Node) : node.at? [] = some node := rfl

theorem at?_cons (node : Node) (name : String) (rest : List String) :
    node.at? (name :: rest) = (node.entries.lookup name).bind fun child => child.at? rest :=
  rfl

theorem at?_append (node : Node) (first second : List String) :
    node.at? (first ++ second) = (node.at? first).bind fun middle => middle.at? second := by
  induction first generalizing node with
  | nil => rfl
  | cons name rest ih =>
      rw [List.cons_append, at?_cons, at?_cons, Option.bind_assoc]
      simp only [ih]

theorem at?_snoc {node parent : Node} {names : List String} (found : node.at? names = some parent)
    (name : String) : node.at? (names ++ [name]) = parent.entries.lookup name := by
  rw [at?_append, found, Option.bind_some, at?_cons]
  cases parent.entries.lookup name <;> rfl

theorem directory_of_entry {node child : Node} {name : String}
    (entry : node.entries.lookup name = some child) : node.isDirectory = true := by
  cases node with
  | directory _ _ _ => rfl
  | file _ _ _ => cases entry
  | link _ _ => cases entry

theorem eq_directory {node : Node} (isDirectory : node.isDirectory = true) :
    ∃ modified, node = .directory node.mode modified node.entries := by
  cases node with
  | directory mode modified entries => exact ⟨modified, rfl⟩
  | file _ _ _ => cases isDirectory
  | link _ _ => cases isDirectory

def AllowedIn (before after : Node) : Prop :=
  ∀ permission, before.allows permission = true → after.allows permission = true

theorem allowed_of_mode {before after : Node} (sameMode : after.mode = before.mode) :
    before.AllowedIn after := by
  intro permission allowed
  unfold allows at allowed ⊢
  rwa [sameMode]

/-- Each directory of the first tree is one in the second, where no less is allowed in it,
and each link is the same there. -/
structure StaysIn (before after : Node) : Prop where
  directories : ∀ {names node}, before.at? names = some node → node.isDirectory = true →
    ∃ later, after.at? names = some later ∧ later.isDirectory = true ∧ node.AllowedIn later
  links : ∀ {names modified target}, before.at? names = some (.link modified target) →
    after.at? names = some (.link modified target)

end Node

namespace FileTree

namespace Place

inductive SitsIn (root : Node) : Place → Prop
  | root : SitsIn root ⟨root, []⟩
  | down {place : Place} {name : String} {child : Node} (above : SitsIn root place)
      (entry : place.node.entries.lookup name = some child) : SitsIn root (place.down name child)

variable {root : Node} {place : Place}

@[simp]
theorem names_down (place : Place) (name : String) (child : Node) :
    (place.down name child).names = place.names ++ [name] := by
  simp [names, down]

theorem names_up (place : Place) : place.up.names = place.names.dropLast := by
  obtain ⟨node, above⟩ := place
  cases above with
  | nil => rfl
  | cons last above => simp [names, up]

theorem sits_at (sits : SitsIn root place) : root.at? place.names = some place.node := by
  induction sits with
  | root => rfl
  | down _ entry ih => rw [names_down, Node.at?_snoc ih, entry, down]

theorem sits_up (sits : SitsIn root place) : SitsIn root place.up := by
  cases sits with
  | root => exact .root
  | down above _ => exact above

theorem up_directory (sits : SitsIn root place) (isDirectory : place.node.isDirectory = true) :
    place.up.node.isDirectory = true := by
  cases sits with
  | root => exact isDirectory
  | down _ entry => exact Node.directory_of_entry entry

theorem root_directory (sits : SitsIn root place) (isDirectory : place.node.isDirectory = true) :
    root.isDirectory = true := by
  induction sits with
  | root => exact isDirectory
  | down _ entry ih => exact ih (Node.directory_of_entry entry)

/-- From where the target of a link is followed. -/
theorem sits_behind_link (sits : SitsIn root place) (target : String) :
    SitsIn root (if isAbsolute target then ⟨root, []⟩ else place) := by
  split
  · exact .root
  · exact sits

theorem names_behind_link (root : Node) (place : Place) (target : String) :
    (if isAbsolute target then (⟨root, []⟩ : Place) else place).names =
      if isAbsolute target then [] else place.names := by
  split <;> rfl

end Place

open Place

def Enterable (root : Node) (names : List String) : Prop :=
  ∃ node, root.at? names = some node ∧ node.isDirectory = true ∧ node.allows .search = true

/-- Steps that lead from one directory to another. On the way they follow links, of which
there may be so many at the start and so many at the end. -/
inductive Leads (root : Node) :
    Nat → List String → List DiskPath.Step → Nat → List String → Prop
  | arrived {links : Nat} {start : List String} : Leads root links start [] links start
  | asFolder {links left : Nat} {start goal : List String} {rest : List DiskPath.Step}
      (onward : Leads root links start rest left goal) :
      Leads root links start (.asFolder :: rest) left goal
  | here {links left : Nat} {start goal : List String} {rest : List DiskPath.Step}
      (enterable : Enterable root start) (onward : Leads root links start rest left goal) :
      Leads root links start (.here :: rest) left goal
  | up {links left : Nat} {start goal : List String} {rest : List DiskPath.Step}
      (enterable : Enterable root start)
      (onward : Leads root links start.dropLast rest left goal) :
      Leads root links start (.up :: rest) left goal
  | down {links left : Nat} {start goal : List String} {rest : List DiskPath.Step} {name : String}
      {child : Node} (enterable : Enterable root start)
      (short : ¬ longestName < name.utf8ByteSize)
      (found : root.at? (start ++ [name]) = some child) (isDirectory : child.isDirectory = true)
      (onward : Leads root links (start ++ [name]) rest left goal) :
      Leads root links start (.down name :: rest) left goal
  | link {links left : Nat} {start goal : List String} {rest : List DiskPath.Step} {name : String}
      {modified : Instant} {target : String} (enterable : Enterable root start)
      (short : ¬ longestName < name.utf8ByteSize)
      (found : root.at? (start ++ [name]) = some (.link modified target))
      (onward : Leads root links (if isAbsolute target then [] else start)
        (route target ++ rest) left goal) :
      Leads root (links + 1) start (.down name :: rest) left goal

/-- A look-up that does not end with the steps before the given ones. -/
def GoesOn (aim : Aim) (rest : List DiskPath.Step) : Prop :=
  aim = .target ∨ aim = .entry ∧ rest ≠ [] ∨
    aim = .writing ∧ rest ≠ [] ∧ rest ≠ [.asFolder]

section Strides

variable {root : Node} {aim : Aim} {links : Nat} {place start : Place}
  {steps rest remaining : List DiskPath.Step}

theorem check_search_ok_iff : place.checkSearch = .ok () ↔ place.node.allows .search = true := by
  unfold checkSearch
  cases place.node.allows .search <;> simp

theorem check_search_bind_ok {α : Type} {next : Except FileFault α} {result : α}
    (ran : (place.checkSearch >>= fun _ => next) = .ok result) :
    place.node.allows .search = true ∧ next = .ok result := by
  cases searched : place.checkSearch with
  | error cause =>
      rw [searched] at ran
      cases ran
  | ok _ =>
      rw [searched] at ran
      exact ⟨check_search_ok_iff.mp searched, ran⟩

theorem walk_of_stride {other : Place} {others : List DiskPath.Step}
    (same : stride root aim place steps = stride root aim other others) :
    walk root aim links place steps = walk root aim links other others := by
  rw [walk, walk, same]

theorem walk_of_detour (detour : stride root aim place steps = .ok (.detour start remaining)) :
    walk root aim (links + 1) place steps = walk root aim links start remaining := by
  rw [walk, detour]

theorem look_up_ok {name : String} {entry : Option Node}
    (looked : lookUp aim place name rest = .ok entry) :
    place.node.allows .search = true ∧ ¬ longestName < name.utf8ByteSize ∧
      entry = place.node.entries.lookup name := by
  unfold lookUp at looked
  obtain ⟨searchable, looked⟩ := check_search_bind_ok looked
  split at looked
  · cases looked
  · split at looked
    · cases looked
    · split at looked
      · cases looked
      · rename_i short _
        cases looked
        exact ⟨searchable, short, rfl⟩

theorem stride_met {name : String} {child : Node}
    (looked : lookUp aim place name rest = .ok (some child))
    (isDirectory : child.isDirectory = true) :
    stride root aim place (.down name :: rest) = stride root aim (place.down name child) rest := by
  obtain ⟨modified, same⟩ := Node.eq_directory isDirectory
  rw [same] at looked ⊢
  rw [stride, looked]
  rfl

variable (searchable : place.node.allows .search = true)
include searchable

theorem stride_here : stride root aim place (.here :: rest) = stride root aim place rest := by
  rw [stride, check_search_ok_iff.mpr searchable]
  rfl

theorem stride_up : stride root aim place (.up :: rest) = stride root aim place.up rest := by
  rw [stride, check_search_ok_iff.mpr searchable]
  rfl

/-- Only a file to be written and a spelling ask for more than the permission. -/
theorem look_up_plain (plain : aim = .target ∨ aim = .entry) (name : String) :
    lookUp aim place name rest =
      if longestName < name.utf8ByteSize then .error .invalidFilename
      else .ok (place.node.entries.lookup name) := by
  have notWriting : aim ≠ .writing := by rcases plain with rfl | rfl <;> decide
  have notSpelling : aim ≠ .spelling := by rcases plain with rfl | rfl <;> decide
  unfold lookUp
  rw [check_search_ok_iff.mpr searchable]
  by_cases long : longestName < name.utf8ByteSize
  · simp [long, notWriting, bind, Except.bind, throw, throwThe, MonadExceptOf.throw]
  · simp [long, notWriting, notSpelling, bind, Except.bind, pure, Except.pure]

theorem look_up_going_on (goesOn : GoesOn aim rest) {name : String}
    (short : ¬ longestName < name.utf8ByteSize) :
    lookUp aim place name rest = .ok (place.node.entries.lookup name) := by
  rcases goesOn with target | ⟨entry, _⟩ | ⟨rfl, _, notFolder⟩
  · rw [look_up_plain searchable (Or.inl target), if_neg short]
  · rw [look_up_plain searchable (Or.inr entry), if_neg short]
  · unfold lookUp
    rw [check_search_ok_iff.mpr searchable]
    simp [short, notFolder, bind, Except.bind, pure, Except.pure]

theorem stride_directory (goesOn : GoesOn aim rest) {name : String} {child : Node}
    (short : ¬ longestName < name.utf8ByteSize)
    (entry : place.node.entries.lookup name = some child) (isDirectory : child.isDirectory = true) :
    stride root aim place (.down name :: rest) = stride root aim (place.down name child) rest := by
  have looked := look_up_going_on searchable goesOn short
  exact stride_met (looked.trans (congrArg Except.ok entry)) isDirectory

theorem stride_link (goesOn : GoesOn aim rest) {name target : String} {modified : Instant}
    (short : ¬ longestName < name.utf8ByteSize)
    (entry : place.node.entries.lookup name = some (.link modified target)) :
    stride root aim place (.down name :: rest) =
      .ok (.detour (if isAbsolute target then ⟨root, []⟩ else place)
        (route target ++ rest)) := by
  have follows : ¬ (rest.isEmpty = true ∧ aim = .entry) := by
    rcases goesOn with rfl | ⟨rfl, more⟩ | ⟨rfl, _, _⟩
    · simp
    · simp [more]
    · simp
  rw [stride, look_up_going_on searchable goesOn short, entry]
  simp only [bind, Except.bind, if_neg follows]
  rfl

end Strides

section Leading

variable {root : Node}

theorem goes_on_append {aim : Aim} {rest : List DiskPath.Step} (goesOn : GoesOn aim rest)
    (first : List DiskPath.Step) : GoesOn aim (first ++ rest) := by
  rcases goesOn with target | ⟨entry, more⟩ | ⟨writing, more, notFolder⟩
  · exact Or.inl target
  · exact Or.inr (Or.inl ⟨entry, by simp [more]⟩)
  · refine Or.inr (Or.inr ⟨writing, by simp [more], ?_⟩)
    intro folder
    rcases List.append_eq_singleton_iff.mp folder with ⟨_, last⟩ | ⟨_, last⟩
    · exact notFolder last
    · exact more last

/-- What a look-up finds behind steps is what it finds from where they lead to. -/
theorem Leads.walk {links left : Nat} {start goal : List String} {steps : List DiskPath.Step}
    (leads : Leads root links start steps left goal) {place : Place} (sits : SitsIn root place)
    (named : place.names = start) :
    ∃ reached, SitsIn root reached ∧ reached.names = goal ∧
      ∀ aim rest, GoesOn aim rest →
        walk root aim links place (steps ++ rest) = walk root aim left reached rest := by
  -- The directory at the start is the one that has to be searched.
  have searched : ∀ {place : Place}, SitsIn root place → Enterable root place.names →
      place.node.allows .search = true := by
    rintro place sits ⟨node, found, _, searchable⟩
    rw [sits_at sits] at found
    cases found
    exact searchable
  induction leads generalizing place with
  | arrived => exact ⟨place, sits, named, fun aim rest _ => rfl⟩
  | asFolder onward ih =>
      obtain ⟨reached, sitsThere, goal, same⟩ := ih sits named
      refine ⟨reached, sitsThere, goal, fun aim rest goesOn => ?_⟩
      rw [← same aim rest goesOn, List.cons_append]
      apply walk_of_stride
      rw [stride]
  | here enterable onward ih =>
      subst named
      obtain ⟨reached, sitsThere, goal, same⟩ := ih sits rfl
      refine ⟨reached, sitsThere, goal, fun aim rest goesOn => ?_⟩
      rw [← same aim rest goesOn, List.cons_append]
      exact walk_of_stride (stride_here (searched sits enterable))
  | up enterable onward ih =>
      subst named
      obtain ⟨reached, sitsThere, goal, same⟩ := ih (sits_up sits) (names_up place)
      refine ⟨reached, sitsThere, goal, fun aim rest goesOn => ?_⟩
      rw [← same aim rest goesOn, List.cons_append]
      exact walk_of_stride (stride_up (searched sits enterable))
  | down enterable short found isDirectory onward ih =>
      subst named
      rw [Node.at?_snoc (sits_at sits)] at found
      obtain ⟨reached, sitsThere, goal, same⟩ := ih (.down sits found) (names_down _ _ _)
      refine ⟨reached, sitsThere, goal, fun aim rest goesOn => ?_⟩
      rw [← same aim rest goesOn, List.cons_append]
      exact walk_of_stride (stride_directory (searched sits enterable) (goes_on_append goesOn _)
        short found isDirectory)
  | @link links left start goal steps name modified target enterable short found onward ih =>
      subst named
      rw [Node.at?_snoc (sits_at sits)] at found
      obtain ⟨reached, sitsThere, goal, same⟩ :=
        ih (sits_behind_link sits target) (names_behind_link root place target)
      refine ⟨reached, sitsThere, goal, fun aim rest goesOn => ?_⟩
      rw [← same aim rest goesOn, List.cons_append, List.append_assoc]
      exact walk_of_detour (stride_link (searched sits enterable) (goes_on_append goesOn _)
        short found)

/-- What the first step of a stride that goes down has met. Only the entry itself can be a link at
the end of a look-up. -/
theorem stride_down_met {aim : Aim} {place : Place} {name : String} {rest : List DiskPath.Step}
    {result : Stride} (ran : stride root aim place (.down name :: rest) = .ok result) :
    place.node.allows .search = true ∧ ¬ longestName < name.utf8ByteSize ∧
      (place.node.entries.lookup name = none ∧ rest = [] ∧
          result = .arrived (.vacant place name) ∨
        ∃ child, place.node.entries.lookup name = some child ∧
          (child.isDirectory = true ∧
            stride root aim (place.down name child) rest = .ok result ∨
            ((∃ mode modified content, child = .file mode modified content) ∨ aim = .entry) ∧
              rest = [] ∧ result = .arrived (.found (place.down name child)) ∨
            ∃ modified target, child = .link modified target ∧
              result = .detour (if isAbsolute target then ⟨root, []⟩ else place)
                (route target ++ rest))) := by
  rw [stride] at ran
  cases looked : lookUp aim place name rest with
  | error cause =>
      rw [looked] at ran
      cases ran
  | ok entry =>
      rw [looked] at ran
      obtain ⟨searchable, short, same⟩ := look_up_ok looked
      subst same
      refine ⟨searchable, short, ?_⟩
      cases met : place.node.entries.lookup name with
      | none =>
          rw [met] at ran
          cases rest with
          | nil =>
              cases ran
              exact Or.inl ⟨rfl, rfl, rfl⟩
          | cons _ _ => cases ran
      | some child =>
          rw [met] at ran
          refine Or.inr ⟨child, rfl, ?_⟩
          cases child with
          | directory _ _ _ => exact Or.inl ⟨rfl, ran⟩
          | file mode modified content =>
              cases rest with
              | nil =>
                  cases ran
                  exact Or.inr (Or.inl ⟨Or.inl ⟨mode, modified, content, rfl⟩, rfl, rfl⟩)
              | cons _ _ => cases ran
          | link modified target =>
              simp only [bind, Except.bind] at ran
              split at ran
              · rename_i isLast
                cases ran
                exact Or.inr (Or.inl ⟨Or.inr isLast.2, List.isEmpty_iff.mp isLast.1, rfl⟩)
              · cases ran
                exact Or.inr (Or.inr ⟨modified, target, rfl, rfl⟩)

theorem stride_down_ok {aim : Aim} (follows : aim ≠ .entry) {place : Place} {name : String}
    {rest : List DiskPath.Step} {result : Stride}
    (ran : stride root aim place (.down name :: rest) = .ok result) :
    place.node.allows .search = true ∧ ¬ longestName < name.utf8ByteSize ∧
      (place.node.entries.lookup name = none ∧ rest = [] ∧
          result = .arrived (.vacant place name) ∨
        ∃ child, place.node.entries.lookup name = some child ∧
          (child.isDirectory = true ∧
            stride root aim (place.down name child) rest = .ok result ∨
            (∃ mode modified content, child = .file mode modified content) ∧ rest = [] ∧
              result = .arrived (.found (place.down name child)) ∨
            ∃ modified target, child = .link modified target ∧
              result = .detour (if isAbsolute target then ⟨root, []⟩ else place)
                (route target ++ rest))) := by
  obtain ⟨searchable, short, met⟩ := stride_down_met ran
  refine ⟨searchable, short, met.imp_right ?_⟩
  rintro ⟨child, entry, met⟩
  refine ⟨child, entry, met.imp_right (Or.imp_left ?_)⟩
  rintro ⟨isFile | isEntry, last⟩
  · exact ⟨isFile, last⟩
  · exact absurd isEntry follows

/-- A stride that arrives has led there, and one that meets a link leads to where the rest
of the way does. -/
def Stride.Follows (root : Node) (start : List String) (steps : List DiskPath.Step) :
    Stride → Prop
  | .arrived (.vacant _ _) => True
  | .arrived (.found reached) =>
      SitsIn root reached ∧ (reached.node.isDirectory = true →
        ∀ links, Leads root links start steps links reached.names)
  | .detour onward remaining =>
      SitsIn root onward ∧ onward.node.isDirectory = true ∧
        ∀ links left goal, Leads root links onward.names remaining left goal →
          Leads root (links + 1) start steps left goal

theorem Stride.follows_longer {start middle : List String} {steps rest : List DiskPath.Step}
    {result : Stride} (follows : result.Follows root middle rest)
    (further : ∀ links left goal, Leads root links middle rest left goal →
      Leads root links start steps left goal) : result.Follows root start steps := by
  match result, follows with
  | .arrived (.vacant _ _), _ => exact trivial
  | .arrived (.found reached), ⟨sits, leads⟩ =>
      exact ⟨sits, fun isDirectory links => further _ _ _ (leads isDirectory links)⟩
  | .detour onward remaining, ⟨sits, isDirectory, leads⟩ =>
      exact ⟨sits, isDirectory, fun links left goal more => further _ _ _ (leads _ _ _ more)⟩

theorem stride_follows {place : Place} (sits : SitsIn root place)
    (isDirectory : place.node.isDirectory = true) {steps : List DiskPath.Step} {result : Stride}
    (ran : stride root .target place steps = .ok result) :
    result.Follows root place.names steps := by
  induction steps generalizing place with
  | nil =>
      rw [stride] at ran
      cases ran
      exact ⟨sits, fun _ links => .arrived⟩
  | cons step rest ih =>
      have entered : place.node.allows .search = true → Enterable root place.names :=
        fun searchable => ⟨place.node, sits_at sits, isDirectory, searchable⟩
      cases step with
      | asFolder =>
          rw [stride] at ran
          exact Stride.follows_longer (ih sits isDirectory ran) fun _ _ _ => .asFolder
      | here =>
          rw [stride] at ran
          obtain ⟨searchable, ran⟩ := check_search_bind_ok ran
          exact Stride.follows_longer (ih sits isDirectory ran) fun _ _ _ =>
            .here (entered searchable)
      | up =>
          rw [stride] at ran
          obtain ⟨searchable, ran⟩ := check_search_bind_ok ran
          have above := ih (sits_up sits) (up_directory sits isDirectory) ran
          rw [names_up] at above
          exact Stride.follows_longer above fun _ _ _ => .up (entered searchable)
      | down name =>
          obtain ⟨searchable, short, met⟩ := stride_down_ok (by decide) ran
          rcases met with ⟨_, _, rfl⟩ | ⟨child, entry, met⟩
          · exact trivial
          · have found : root.at? (place.names ++ [name]) = some child := by
              rw [Node.at?_snoc (sits_at sits), entry]
            rcases met with ⟨isDirectory, ran⟩ | ⟨⟨_, _, _, rfl⟩, _, rfl⟩ |
              ⟨_, target, rfl, rfl⟩
            · have below := ih (.down sits entry) isDirectory ran
              rw [names_down] at below
              exact Stride.follows_longer below fun _ _ _ =>
                .down (entered searchable) short found isDirectory
            · exact ⟨.down sits entry, fun no => nomatch no⟩
            · refine ⟨?_, ?_, fun links left goal more =>
                .link (entered searchable) short found ?_⟩
              · exact sits_behind_link sits target
              · split
                · exact root_directory sits isDirectory
                · exact isDirectory
              · rw [← names_behind_link root]
                exact more

theorem walk_ok_cases {aim : Aim} {links : Nat} {place : Place} {steps : List DiskPath.Step}
    {spot : Spot} (ran : walk root aim links place steps = .ok spot) :
    stride root aim place steps = .ok (.arrived spot) ∨
      ∃ fewer start remaining, links = fewer + 1 ∧
        stride root aim place steps = .ok (.detour start remaining) ∧
        walk root aim fewer start remaining = .ok spot := by
  rw [walk] at ran
  cases strode : stride root aim place steps with
  | error cause =>
      rw [strode] at ran
      cases ran
  | ok result =>
      rw [strode] at ran
      cases result with
      | arrived there =>
          cases ran
          exact Or.inl rfl
      | detour start remaining =>
          cases links with
          | zero => cases ran
          | succ fewer => exact Or.inr ⟨fewer, start, remaining, rfl, rfl, ran⟩

/-- A directory that a look-up finds is one that its steps lead to. -/
theorem walk_leads {links : Nat} {place reached : Place} (sits : SitsIn root place)
    (isDirectory : place.node.isDirectory = true) {steps : List DiskPath.Step}
    (ran : walk root .target links place steps = .ok (.found reached))
    (atDirectory : reached.node.isDirectory = true) :
    SitsIn root reached ∧ ∃ left, Leads root links place.names steps left reached.names := by
  induction links generalizing place steps with
  | zero =>
      rcases walk_ok_cases ran with arrived | ⟨_, _, _, impossible, _⟩
      · obtain ⟨sitsThere, leads⟩ := stride_follows sits isDirectory arrived
        exact ⟨sitsThere, _, leads atDirectory _⟩
      · cases impossible
  | succ links ih =>
      rcases walk_ok_cases ran with arrived | ⟨_, start, remaining, same, detour, ran⟩
      · obtain ⟨sitsThere, leads⟩ := stride_follows sits isDirectory arrived
        exact ⟨sitsThere, _, leads atDirectory _⟩
      · cases same
        obtain ⟨sitsOnward, isOnward, further⟩ := stride_follows sits isDirectory detour
        obtain ⟨sitsThere, left, leads⟩ := ih sitsOnward isOnward ran
        exact ⟨sitsThere, left, further _ _ _ leads⟩

/-- No steps lead away from a root that is no directory. -/
theorem stride_at_file (isFile : root.isDirectory = false) {steps : List DiskPath.Step}
    {result : Stride} (ran : stride root .target ⟨root, []⟩ steps = .ok result) :
    result = .arrived (.found ⟨root, []⟩) ∨
      ∃ name, result = .arrived (.vacant ⟨root, []⟩ name) := by
  induction steps with
  | nil =>
      cases ran
      exact Or.inl rfl
  | cons step rest ih =>
      cases step with
      | asFolder =>
          rw [stride] at ran
          exact ih ran
      | here =>
          rw [stride] at ran
          exact ih (check_search_bind_ok ran).2
      | up =>
          rw [stride] at ran
          exact ih (check_search_bind_ok ran).2
      | down name =>
          obtain ⟨_, _, ⟨_, _, rfl⟩ | ⟨child, entry, _⟩⟩ :=
            stride_down_ok (by decide) ran
          · exact Or.inr ⟨name, rfl⟩
          · rw [Node.directory_of_entry entry] at isFile
            cases isFile

/-- A directory is found in a directory only. -/
theorem root_of_walk {links : Nat} {reached : Place} {steps : List DiskPath.Step}
    (ran : walk root .target links ⟨root, []⟩ steps = .ok (.found reached))
    (atDirectory : reached.node.isDirectory = true) : root.isDirectory = true := by
  cases isDirectory : root.isDirectory with
  | true => rfl
  | false =>
      rcases walk_ok_cases ran with strode | ⟨_, _, _, _, strode, _⟩
      · rcases stride_at_file isDirectory strode with same | ⟨_, same⟩
        · cases same
          exact isDirectory.symm.trans atDirectory
        · cases same
      · rcases stride_at_file isDirectory strode with same | ⟨_, same⟩ <;> cases same

/-- Where steps lead on the way to where more steps lead. -/
theorem Leads.split {links left : Nat} {start goal : List String}
    {first second : List DiskPath.Step}
    (leads : Leads root links start (first ++ second) left goal) :
    ∃ between middle, Leads root links start first between middle ∧
      Leads root between middle second left goal := by
  generalize whole : first ++ second = steps at leads
  induction leads generalizing first with
  | arrived =>
      obtain ⟨rfl, rfl⟩ := List.append_eq_nil_iff.mp whole
      exact ⟨_, _, .arrived, .arrived⟩
  | asFolder onward ih =>
      rcases List.append_eq_cons_iff.mp whole with ⟨rfl, rfl⟩ | ⟨shorter, rfl, rfl⟩
      · exact ⟨_, _, .arrived, .asFolder onward⟩
      · obtain ⟨_, _, before, behind⟩ := ih rfl
        exact ⟨_, _, .asFolder before, behind⟩
  | here enterable onward ih =>
      rcases List.append_eq_cons_iff.mp whole with ⟨rfl, rfl⟩ | ⟨shorter, rfl, rfl⟩
      · exact ⟨_, _, .arrived, .here enterable onward⟩
      · obtain ⟨_, _, before, behind⟩ := ih rfl
        exact ⟨_, _, .here enterable before, behind⟩
  | up enterable onward ih =>
      rcases List.append_eq_cons_iff.mp whole with ⟨rfl, rfl⟩ | ⟨shorter, rfl, rfl⟩
      · exact ⟨_, _, .arrived, .up enterable onward⟩
      · obtain ⟨_, _, before, behind⟩ := ih rfl
        exact ⟨_, _, .up enterable before, behind⟩
  | down enterable short found isDirectory onward ih =>
      rcases List.append_eq_cons_iff.mp whole with ⟨rfl, rfl⟩ | ⟨shorter, rfl, rfl⟩
      · exact ⟨_, _, .arrived, .down enterable short found isDirectory onward⟩
      · obtain ⟨_, _, before, behind⟩ := ih rfl
        exact ⟨_, _, .down enterable short found isDirectory before, behind⟩
  | link enterable short found onward ih =>
      rcases List.append_eq_cons_iff.mp whole with ⟨rfl, rfl⟩ | ⟨shorter, rfl, rfl⟩
      · exact ⟨_, _, .arrived, .link enterable short found onward⟩
      · obtain ⟨_, _, before, behind⟩ := ih (List.append_assoc _ _ _)
        exact ⟨_, _, .link enterable short found before, behind⟩

theorem Leads.enterable {links left : Nat} {start goal : List String} {step : DiskPath.Step}
    {rest : List DiskPath.Step} (leads : Leads root links start (step :: rest) left goal)
    (moves : step ≠ .asFolder) : Enterable root start := by
  cases leads with
  | asFolder _ => exact absurd rfl moves
  | here enterable _ => exact enterable
  | up enterable _ => exact enterable
  | down enterable _ _ _ _ => exact enterable
  | link enterable _ _ _ => exact enterable

theorem Leads.entry {links left : Nat} {start goal : List String} {name : String}
    {rest : List DiskPath.Step} (leads : Leads root links start (.down name :: rest) left goal) :
    ∃ child, root.at? (start ++ [name]) = some child := by
  cases leads with
  | down _ _ found _ _ => exact ⟨_, found⟩
  | link _ _ found _ => exact ⟨_, found⟩

theorem Leads.without_staying {links left : Nat} {start goal : List String}
    {steps : List DiskPath.Step} {count : Nat}
    (leads : Leads root links start (steps ++ List.replicate count .here) left goal) :
    Leads root links start steps left goal := by
  obtain ⟨between, middle, before, behind⟩ := leads.split
  have stayed : between = left ∧ middle = goal := by
    clear leads before
    induction count with
    | zero =>
        cases behind
        exact ⟨rfl, rfl⟩
    | succ count ih =>
        rw [List.replicate_succ] at behind
        cases behind with
        | here _ onward => exact ih onward
  obtain ⟨rfl, rfl⟩ := stayed
  exact before

/-- Steps lead where they did as long as the directories and links on their way stay. -/
theorem Leads.stays {after : Node} {links left : Nat} {start goal : List String}
    {steps : List DiskPath.Step} (leads : Leads root links start steps left goal)
    (stays : root.StaysIn after) : Leads after links start steps left goal := by
  have enterable : ∀ {names}, Enterable root names → Enterable after names := by
    rintro names ⟨node, found, isDirectory, searchable⟩
    obtain ⟨later, foundLater, still, allowed⟩ := stays.directories found isDirectory
    exact ⟨later, foundLater, still, allowed _ searchable⟩
  induction leads with
  | arrived => exact .arrived
  | asFolder _ ih => exact .asFolder ih
  | here entered _ ih => exact .here (enterable entered) ih
  | up entered _ ih => exact .up (enterable entered) ih
  | down entered short found isDirectory _ ih =>
      obtain ⟨later, foundLater, still, _⟩ := stays.directories found isDirectory
      exact .down (enterable entered) short foundLater still ih
  | link entered short found _ ih =>
      exact .link (enterable entered) short (stays.links found) ih

end Leading

end FileTree

end StorageScenario
