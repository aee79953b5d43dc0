import StorageScenario.Proofs.DirectoryGrowth

/-!
Modes that are set on what a creation has made. A file may be given any mode. A directory that
is given one that keeps nothing from its owner stays one that can be entered and changed.
-/

namespace StorageScenario

open DiskPath ObjectPath FileTree Work

def GrantsAll (mode : UInt32) : Prop := ∀ permission : Permission, mode &&& permission.bit ≠ 0

theorem grants_all_masked {mode : UInt32} (granted : GrantsAll mode) :
    GrantsAll (mode &&& Disk.modeMask) := by
  intro permission
  have kept : Disk.modeMask &&& permission.bit = permission.bit := by cases permission <;> decide
  rw [UInt32.and_assoc, kept]
  exact granted permission

namespace Node

section Modes

variable {node root before after : Node} {mode : UInt32} {names : List String}

theorem with_mode_entries (mode : UInt32) (node : Node) :
    (node.withMode mode).entries = node.entries := by
  cases node <;> rfl

theorem with_mode_is_directory (mode : UInt32) (node : Node) :
    (node.withMode mode).isDirectory = node.isDirectory := by
  cases node <;> rfl

theorem with_mode_allows_all (isDirectory : node.isDirectory = true) (granted : GrantsAll mode) :
    (node.withMode mode).AllowsAll := by
  intro permission
  cases node with
  | directory _ _ _ => exact decide_eq_true (granted permission)
  | file _ _ _ => cases isDirectory
  | link _ _ => cases isDirectory

theorem at?_with_mode (mode : UInt32) (node : Node) {deeper : List String} (below : deeper ≠ []) :
    (node.withMode mode).at? deeper = node.at? deeper := by
  cases deeper with
  | nil => exact absurd rfl below
  | cons name rest => rw [at?_cons, at?_cons, with_mode_entries]

theorem tidy_with_mode (tidy : node.Tidy) : (node.withMode mode).Tidy := by
  cases tidy with
  | file _ modified content => exact .file mode modified content
  | directory distinct proper tidy => exact .directory distinct proper tidy

theorem stays_in_with_mode (tidy : node.Tidy)
    (granted : node.isDirectory = true → GrantsAll mode) : node.StaysIn (node.withMode mode) := by
  cases isDirectory : node.isDirectory with
  | true =>
      refine stays_in_of_entries isDirectory ((with_mode_is_directory mode node).trans isDirectory)
        ?_ ?_
      · exact fun permission _ => with_mode_allows_all isDirectory (granted isDirectory) permission
      · intro name child entry
        rw [with_mode_entries]
        exact ⟨child, entry, .itself child⟩
  | false =>
      cases tidy with
      | file _ _ _ => exact stays_in_file _ _ _ _
      | directory _ _ _ => cases isDirectory

theorem kind_at?_with_mode (stands : root.at? names = some node) (others : List String) :
    (root.update (withMode mode) names).kindAt? others = root.kindAt? others := by
  rw [kind_at?_update stands]
  split
  · rename_i inside
    obtain ⟨deeper, rfl⟩ := inside
    rw [List.drop_left, kind_at?_append, stands, Option.bind_some]
    unfold kindAt?
    by_cases atNode : deeper = []
    · subst atNode
      simp only [at?_nil, Option.map_some, kind, with_mode_is_directory]
    · rw [at?_with_mode mode node atNode]
  · rfl

theorem remains_with_mode (stands : root.at? names = some node) {others : List String}
    (elsewhere : others ≠ names) :
    Remains (root.at? others) ((root.update (withMode mode) names).at? others) := by
  by_cases inside : names <+: others
  · obtain ⟨deeper, rfl⟩ := inside
    have below : deeper ≠ [] := by
      rintro rfl
      exact elsewhere (List.append_nil names)
    rw [at?_update_append stands, at?_append, stands, Option.bind_some,
      at?_with_mode mode node below]
    exact remains_itself _
  · exact remains_elsewhere inside

/-- What has been created is as good with a mode of its own, which for a directory grants all. -/
theorem Created.with_mode {kind : EntityKind} (created : Created names kind before after)
    (stands : after.at? names = some node) (tidy : node.Tidy)
    (granted : node.isDirectory = true → GrantsAll mode) :
    Created names kind before (after.update (withMode mode) names) := by
  have kinds : ∀ others, (after.update (withMode mode) names).kindAt? others =
    after.kindAt? others := kind_at?_with_mode stands
  have stays : after.StaysIn (after.update (withMode mode) names) :=
    stays_in_update stands (stays_in_with_mode tidy granted)
  refine ⟨fun others => (kinds others).trans (created.shown others),
    fun isHeld => (kinds _).trans (created.kept isHeld), created.stays.trans stays,
    ?unaltered, ?fresh, ?opened, created.passable.stays stays⟩
  case unaltered =>
    intro others held elsewhere isHeld
    obtain ⟨between, found, unaltered⟩ := created.unaltered elsewhere isHeld
    obtain ⟨later, foundLater, unalteredLater⟩ :=
      later_of_remains (remains_with_mode stands elsewhere) found
    exact ⟨later, foundLater, unaltered.trans unalteredLater⟩
  case fresh =>
    intro others held isNew isHeld isDirectory
    by_cases here : others = names
    · subst here
      rw [at?_update stands] at isHeld
      cases isHeld
      rw [with_mode_is_directory] at isDirectory
      exact with_mode_allows_all isDirectory (granted isDirectory)
    · obtain ⟨between, found, unaltered⟩ :=
        earlier_of_remains (remains_with_mode stands here) isHeld
      intro permission
      rw [unaltered.allows]
      exact created.fresh isNew found (unaltered.isDirectory.symm.trans isDirectory) permission
  case opened =>
    intro front name held isNew isHeld
    have someBetween : ∃ between, after.at? (front ++ [name]) = some between := by
      have itsKind := kind_at?_of_found isHeld
      rw [kinds] at itsKind
      obtain ⟨between, found, _⟩ := Option.map_eq_some_iff.mp itsKind
      exact ⟨between, found⟩
    obtain ⟨between, found⟩ := someBetween
    obtain ⟨directory, foundDirectory, isDirectory, writable, searchable⟩ :=
      created.opened isNew found
    obtain ⟨later, foundLater, still, allowed⟩ := stays.directories foundDirectory isDirectory
    exact ⟨later, foundLater, still, allowed _ writable, allowed _ searchable⟩

end Modes

end Node

namespace Disk

variable {way : List DiskPath.Step} {left : Nat} {base : List String} {tree after : FileTree}
  {ground : Node} {names : List String} {path : String} {mode : UInt32}

theorem set_mode_inside (grounds : Grounds way left base tree ground)
    (into : GoesInto way names path) (ran : setMode path mode tree = .ok () after) :
    ∃ node, ground.at? names = some node ∧
      after = tree.update (base ++ names) (Node.withMode (mode &&& modeMask)) := by
  obtain ⟨place, between, located, changed⟩ := bind_ok_iff.mp ran
  cases (locate_looks path .target).of_ok located
  obtain ⟨named, stands, _⟩ := locate_inside grounds into located
  cases changed
  exact ⟨place.node, stands, by rw [named]⟩

theorem mode_after_creation {kind : EntityKind} {before : Node}
    (grounds : Grounds way left base tree ground) (into : GoesInto way names path)
    (created : Node.Created names kind before ground)
    (granted : kind = .folder → GrantsAll mode) (ran : setMode path mode tree = .ok () after) :
    ∃ later, Grows way left base tree after later ∧ Node.Created names kind before later := by
  obtain ⟨node, stands, rfl⟩ := set_mode_inside grounds into ran
  have tidy := (Node.tidy_at grounds.tidy stands).2
  have grantedHere : node.isDirectory = true → GrantsAll (mode &&& modeMask) := by
    intro isDirectory
    have itsKind := created.shown names
    rw [if_pos rfl, Node.kind_at?_of_found stands,
      Node.kind_eq_folder_iff.mpr isDirectory] at itsKind
    exact grants_all_masked (granted (Option.some.inj itsKind).symm)
  refine ⟨_, grounds.update stands ?_ fun _ => Node.tidy_with_mode,
    created.with_mode stands tidy grantedHere⟩
  exact Node.stays_in_with_mode tidy grantedHere

end Disk

end StorageScenario
