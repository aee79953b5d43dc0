import StorageScenario.Proofs.DirectoryModes
import StorageScenario.Proofs.PathClimbing

/-!
Paths taken by their text. Whatever a look-up finds is reached from the root by going down, and
in a tree without links it is found under the names that the text of the path leads to, with each
`..` taking back the name before it.
-/

namespace StorageScenario

open DiskPath ObjectPath Work

namespace DiskPath

def Step.take (names : List String) : Step → List String
  | .here => names
  | .up => names.dropLast
  | .down name => names ++ [name]
  | .asFolder => names

theorem take_steps (pieces trail : List String) :
    (pieces.filterMap step?).foldl Step.take trail.reverse =
      (pieces.foldl follow trail).reverse := by
  induction pieces generalizing trail with
  | nil => rfl
  | cons piece rest ih =>
      rw [List.foldl_cons, ← ih]
      rcases step_cases piece with (rfl | rfl) | rfl | down
      · rfl
      · rfl
      · rw [follow_up, ← List.dropLast_reverse]
        rfl
      · have isStep : step? piece = some (.down piece) := by
          simp only [goesDown, Bool.and_eq_true, decide_eq_true_eq] at down
          simp [step?, down]
        rw [follow_down down, List.filterMap_cons_some isStep, List.foldl_cons, List.reverse_cons]
        rfl

theorem take_all (path : String) : (steps path).foldl Step.take [] = ObjectPath.names path :=
  take_steps (pieces path) []

theorem take_route (path : String) : (route path).foldl Step.take [] = ObjectPath.names path := by
  rw [← take_all]
  unfold route
  split
  · rw [List.foldl_append]
    rfl
  · rfl

end DiskPath

namespace FileTree

open Place

def Stride.place : Stride → Place
  | .arrived (.found reached) => reached
  | .arrived (.vacant directory _) => directory
  | .detour onward _ => onward

def Spot.names : Spot → List String
  | .found reached => reached.names
  | .vacant directory name => directory.names ++ [name]

section Strides

variable {root : Node} {aim : Aim} {place : Place} {steps : List DiskPath.Step} {result : Stride}

theorem stride_sits (sits : SitsIn root place) (ran : stride root aim place steps = .ok result) :
    SitsIn root result.place := by
  induction steps generalizing place with
  | nil =>
      cases ran
      exact sits
  | cons step rest ih =>
      cases step with
      | asFolder =>
          rw [stride] at ran
          exact ih sits ran
      | here =>
          rw [stride] at ran
          exact ih sits (check_search_bind_ok ran).2
      | up =>
          rw [stride] at ran
          exact ih (sits_up sits) (check_search_bind_ok ran).2
      | down name =>
          obtain ⟨_, _, ⟨_, _, rfl⟩ | ⟨child, entry, met⟩⟩ := stride_down_met ran
          · exact sits
          · rcases met with ⟨_, ran⟩ | ⟨_, _, rfl⟩ | ⟨_, target, _, rfl⟩
            · exact ih (.down sits entry) ran
            · exact .down sits entry
            · exact sits_behind_link sits target

theorem walk_sits {links : Nat} {spot : Spot} (sits : SitsIn root place)
    (ran : walk root aim links place steps = .ok spot) :
    SitsIn root (Stride.arrived spot).place := by
  induction links generalizing place steps with
  | zero =>
      rcases walk_ok_cases ran with strode | ⟨_, _, _, impossible, _⟩
      · exact stride_sits sits strode
      · cases impossible
  | succ links ih =>
      rcases walk_ok_cases ran with strode | ⟨_, _, _, same, detour, ran⟩
      · exact stride_sits sits strode
      · cases same
        exact ih (stride_sits sits detour) ran

/-- In a tree without links the steps are taken by their text. -/
theorem stride_by_text (plain : root.Tidy) (sits : SitsIn root place)
    (ran : stride root aim place steps = .ok result) :
    ∃ spot, result = .arrived spot ∧ spot.names = steps.foldl Step.take place.names := by
  induction steps generalizing place with
  | nil =>
      cases ran
      exact ⟨_, rfl, rfl⟩
  | cons step rest ih =>
      cases step with
      | asFolder =>
          rw [stride] at ran
          exact ih sits ran
      | here =>
          rw [stride] at ran
          exact ih sits (check_search_bind_ok ran).2
      | up =>
          rw [stride] at ran
          obtain ⟨spot, arrived, named⟩ := ih (sits_up sits) (check_search_bind_ok ran).2
          rw [names_up] at named
          exact ⟨spot, arrived, named⟩
      | down name =>
          obtain ⟨_, _, ⟨_, rfl, rfl⟩ | ⟨child, entry, met⟩⟩ := stride_down_met ran
          · exact ⟨_, rfl, rfl⟩
          · rcases met with ⟨_, ran⟩ | ⟨_, rfl, rfl⟩ | ⟨_, _, rfl, _⟩
            · obtain ⟨spot, arrived, named⟩ := ih (.down sits entry) ran
              rw [names_down] at named
              exact ⟨spot, arrived, named⟩
            · exact ⟨_, rfl, names_down _ _ _⟩
            · cases (Node.tidy_at plain (sits_at (.down sits entry))).2

theorem walk_by_text {links : Nat} {spot : Spot} (plain : root.Tidy) (sits : SitsIn root place)
    (ran : walk root aim links place steps = .ok spot) :
    spot.names = steps.foldl Step.take place.names := by
  rcases walk_ok_cases ran with strode | ⟨_, _, _, _, strode, _⟩
  · obtain ⟨_, arrived, named⟩ := stride_by_text plain sits strode
    cases arrived
    exact named
  · obtain ⟨_, impossible, _⟩ := stride_by_text plain sits strode
    cases impossible

end Strides

section Calls

variable {tree after : FileTree} {place : Place}

theorem sits_of_locate {path : String} {aim : Aim}
    (ran : Disk.locate path aim tree = .ok place after) : SitsIn tree.root place :=
  walk_sits .root (Disk.locate_ok ran)

theorem names_of_locate (plain : tree.root.Tidy) {path : String} {aim : Aim}
    (ran : Disk.locate path aim tree = .ok place after) : place.names = ObjectPath.names path := by
  have named := walk_by_text plain .root (Disk.locate_ok ran)
  exact named.trans (take_route path)

theorem entered_of_last_step {path : String} {step : DiskPath.Step}
    (ran : Disk.lastStep path tree = .ok (some (place, step)) after) :
    ∃ above, steps path = above ++ [step] ∧ tree.enter above = .ok place := by
  rcases Disk.last_step_ok ran with none | ⟨above, last, directory, whole, entered, same⟩
  · cases none
  · cases same
    exact ⟨above, whole, entered⟩

theorem sits_of_last_step {path : String} {step : DiskPath.Step}
    (ran : Disk.lastStep path tree = .ok (some (place, step)) after) : SitsIn tree.root place := by
  obtain ⟨above, _, entered⟩ := entered_of_last_step ran
  exact walk_sits .root (enter_found entered)

theorem names_of_last_step (plain : tree.root.Tidy) {path name : String}
    (ran : Disk.lastStep path tree = .ok (some (place, .down name)) after) :
    place.names ++ [name] = ObjectPath.names path := by
  obtain ⟨above, whole, entered⟩ := entered_of_last_step ran
  have named := walk_by_text plain .root (enter_found entered)
  rw [List.foldl_append] at named
  rw [← take_all, whole, List.foldl_append]
  exact congrArg (Step.take · (.down name)) named

end Calls

end FileTree

end StorageScenario
