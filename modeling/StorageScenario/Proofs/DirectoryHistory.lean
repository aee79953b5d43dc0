import StorageScenario.Proofs.DirectoryDescent
import StorageScenario.Proofs.EntryRemoval

/-!
What has become of a directory in which paths have been made and removed. Whatever was there
before is not altered, all that is new is on the way to a path that has been made, and the new
directories belong to the caller. Each creation and each removal of a path that was free at
first keeps this, so once all paths are removed again the folders above them are what is left.
-/

namespace StorageScenario

namespace Node

/-- Nothing has become of a directory but that paths, with folders above them, have been made in
it, of which some may have been removed again. -/
structure Grown (origin now : Node) (made : List (List String)) : Prop where
  kept : origin.KeptIn now
  isMade : ∀ {others node}, origin.at? others = none → now.at? others = some node →
    ∃ names ∈ made, others <+: names
  owned : ∀ {others node}, origin.at? others = none → now.at? others = some node →
    node.isDirectory = true → node.AllowsAll
  opened : ∀ {front name node}, origin.at? (front ++ [name]) = none →
    now.at? (front ++ [name]) = some node →
    ∃ directory, now.at? front = some directory ∧ directory.Changeable

/-- What stood at and below some paths has been removed, and nothing else has been altered. -/
structure Cleared (paths : List (List String)) (before after : Node) : Prop where
  gone : ∀ names ∈ paths, ∀ deeper, after.at? (names ++ deeper) = none
  remains : ∀ {others}, (∀ names ∈ paths, ¬ names <+: others) →
    Remains (before.at? others) (after.at? others)

theorem Cleared.same_paths {paths others : List (List String)} {before after : Node}
    (cleared : Cleared paths before after) (same : ∀ path, path ∈ others ↔ path ∈ paths) :
    Cleared others before after where
  gone path member := cleared.gone path ((same path).mp member)
  remains outside := cleared.remains fun path member => outside path ((same path).mpr member)

/-- A folder on the way to a path, which is neither one of the paths nor below one. -/
def LeftOver (paths : List (List String)) (names : List String) : Prop :=
  names ≠ [] ∧ (∃ path ∈ paths, names <+: path) ∧ ∀ path ∈ paths, ¬ path <+: names

section Histories

variable {origin now later : Node} {made : List (List String)} {names : List String}
  {kind : EntityKind}

theorem grown_itself (origin : Node) : Grown origin origin [] where
  kept := kept_in_itself origin
  isMade isNew isHeld := by
    rw [isNew] at isHeld
    cases isHeld
  owned isNew isHeld := by
    rw [isNew] at isHeld
    cases isHeld
  opened isNew isHeld := by
    rw [isNew] at isHeld
    cases isHeld

theorem Grown.created (grown : Grown origin now made) (created : Created names kind now later)
    (isNew : origin.at? names = none) : Grown origin later (made ++ [names]) where
  kept others node isHeld := by
    have elsewhere : others ≠ names := by
      rintro rfl
      rw [isNew] at isHeld
      cases isHeld
    obtain ⟨between, found, unaltered⟩ := grown.kept others node isHeld
    obtain ⟨after, foundAfter, unalteredAfter⟩ := created.unaltered elsewhere found
    exact ⟨after, foundAfter, unaltered.trans unalteredAfter⟩
  isMade {others node} isFree isHeld := by
    have shown := created.shown others
    rw [kind_at?_of_found isHeld] at shown
    split at shown
    · rename_i same
      exact ⟨names, by simp, same ▸ List.prefix_refl _⟩
    · split at shown
      · rename_i above
        exact ⟨names, by simp, above⟩
      · obtain ⟨between, found, _⟩ := Option.map_eq_some_iff.mp shown.symm
        obtain ⟨path, member, above⟩ := grown.isMade isFree found
        exact ⟨path, List.mem_append_left _ member, above⟩
  owned {others node} isFree isHeld isDirectory := by
    cases between : now.at? others with
    | none => exact created.fresh between isHeld isDirectory
    | some held =>
        have sameKind := created.kept (kind_at?_of_found between)
        rw [kind_at?_of_found isHeld] at sameKind
        have heldDirectory : held.isDirectory = true :=
          kind_eq_folder_iff.mp ((Option.some.inj sameKind).symm.trans
            (kind_eq_folder_iff.mpr isDirectory))
        obtain ⟨after, found, _, allowed⟩ := created.stays.directories between heldDirectory
        cases found.symm.trans isHeld
        exact fun permission =>
          allowed _ (grown.owned isFree between heldDirectory permission)
  opened {front name node} isFree isHeld := by
    cases between : now.at? (front ++ [name]) with
    | none => exact created.opened between isHeld
    | some held =>
        obtain ⟨directory, found, isDirectory, writable, searchable⟩ :=
          grown.opened isFree between
        obtain ⟨after, foundAfter, still, allowed⟩ :=
          created.stays.directories found isDirectory
        exact ⟨after, foundAfter, still, allowed _ writable, allowed _ searchable⟩

theorem Grown.removed (grown : Grown origin now made) (removed : Removed names now later)
    (isNew : origin.at? names = none) : Grown origin later made := by
  -- What is there after the removal has been there before, and is not below the names.
  have before : ∀ {others node}, later.at? others = some node → ¬ names <+: others ∧
      ∃ held, now.at? others = some held ∧ held.Unaltered node := by
    intro others node isHeld
    have outside : ¬ names <+: others := by
      rintro ⟨deeper, rfl⟩
      rw [removed.gone deeper] at isHeld
      cases isHeld
    exact ⟨outside, earlier_of_remains (removed.spared _ outside) isHeld⟩
  refine ⟨?kept, ?isMade, ?owned, ?opened⟩
  case kept =>
    intro others node isHeld
    have outside : ¬ names <+: others := by
      rintro ⟨deeper, rfl⟩
      rw [at?_append, isNew] at isHeld
      cases isHeld
    obtain ⟨between, found, unaltered⟩ := grown.kept others node isHeld
    obtain ⟨after, foundAfter, further⟩ := later_of_remains (removed.spared _ outside) found
    exact ⟨after, foundAfter, unaltered.trans further⟩
  case isMade =>
    intro others node isFree isHeld
    obtain ⟨_, held, found, _⟩ := before isHeld
    exact grown.isMade isFree found
  case owned =>
    intro others node isFree isHeld isDirectory permission
    obtain ⟨_, held, found, unaltered⟩ := before isHeld
    rw [unaltered.allows]
    exact grown.owned isFree found (unaltered.isDirectory.symm.trans isDirectory) permission
  case opened =>
    intro front name node isFree isHeld
    obtain ⟨outside, held, found, _⟩ := before isHeld
    obtain ⟨directory, inFront, changeable⟩ := grown.opened isFree found
    have above : ¬ names <+: front := fun inside => outside (inside.trans (List.prefix_append _ _))
    obtain ⟨after, foundAfter, unaltered⟩ := later_of_remains (removed.spared _ above) inFront
    exact ⟨after, foundAfter, changeable.later unaltered⟩

theorem Unbarred.removed {path : List String} (unbarred : now.Unbarred path)
    (removed : Removed names now later) : later.Unbarred path := by
  refine unbarred.later ?_
  intro front name rest directory _ isHeld
  refine earlier_of_remains (removed.spared _ ?_) isHeld
  rintro ⟨deeper, rfl⟩
  rw [removed.gone deeper] at isHeld
  cases isHeld

/-- What stands at names that were free at first belongs to the caller as a whole. -/
theorem Grown.owned_below (grown : Grown origin now made) (isNew : origin.at? names = none)
    {node : Node} (isHeld : now.at? names = some node) : node.Owned := by
  intro deeper held isBelow isDirectory
  have isFree : origin.at? (names ++ deeper) = none := by rw [at?_append, isNew, Option.bind_none]
  have found : now.at? (names ++ deeper) = some held := by
    rw [at?_append, isHeld, Option.bind_some, isBelow]
  exact grown.owned isFree found isDirectory

theorem cleared_nothing (node : Node) : Cleared [] node node where
  gone := by simp
  remains _ := remains_itself _

theorem Removed.clears {paths : List (List String)} {before : Node}
    (removed : Removed names before now) (cleared : Cleared paths now later) :
    Cleared (names :: paths) before later where
  gone path member deeper := by
    by_cases below : ∃ other ∈ paths, other <+: path ++ deeper
    · obtain ⟨other, isOther, rest, same⟩ := below
      rw [← same]
      exact cleared.gone other isOther rest
    · rcases List.mem_cons.mp member with rfl | isPath
      · apply Option.eq_none_iff_forall_ne_some.mpr
        intro node isHeld
        obtain ⟨held, found, _⟩ := earlier_of_remains
          (cleared.remains fun other isOther inside => below ⟨other, isOther, inside⟩) isHeld
        rw [removed.gone deeper] at found
        cases found
      · exact absurd ⟨path, isPath, List.prefix_append _ _⟩ below
  remains outside := by
    have outsideNames := outside names List.mem_cons_self
    exact (removed.spared _ outsideNames).trans
      (cleared.remains fun path member => outside path (List.mem_cons_of_mem _ member))

/-- A folder that is left over is there once all paths that have been made are removed. -/
theorem left_over_folder (passable : ∀ path ∈ made, now.Passable path)
    (cleared : Cleared made now later) {others : List String} (left : LeftOver made others) :
    later.kindAt? others = some .folder := by
  obtain ⟨_, ⟨path, member, rest, rfl⟩, outside⟩ := left
  cases rest with
  | nil =>
      rw [List.append_nil] at member
      exact absurd (List.prefix_refl _) (outside _ member)
  | cons name rest =>
      obtain ⟨_, directory, stands, isDirectory, _⟩ := passable _ member others name rest rfl
      obtain ⟨after, found, unaltered⟩ := later_of_remains (cleared.remains outside) stands
      rw [kind_at?_of_found found, kind_eq_folder_iff.mpr (unaltered.isDirectory.trans isDirectory)]

theorem kind_not_left_over (grown : Grown origin later made) (cleared : Cleared made now later)
    {others : List String} (notLeft : ¬ LeftOver made others) :
    later.kindAt? others = origin.kindAt? others := by
  cases before : origin.at? others with
  | some node =>
      obtain ⟨after, found, unaltered⟩ := grown.kept others node before
      rw [kind_at?_of_found found, kind_at?_of_found before]
      unfold kind
      rw [unaltered.isDirectory]
  | none =>
      rw [kind_at?_eq_none_iff.mpr before, kind_at?_eq_none_iff]
      apply Option.eq_none_iff_forall_ne_some.mpr
      intro node isHeld
      refine notLeft ⟨?_, grown.isMade before isHeld, ?_⟩
      · rintro rfl
        cases before
      · rintro path member ⟨deeper, rfl⟩
        rw [cleared.gone path member deeper] at isHeld
        cases isHeld

end Histories

end Node

end StorageScenario
