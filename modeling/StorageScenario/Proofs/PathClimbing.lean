import Mathlib.Data.List.TakeDrop
import StorageScenario.Proofs.PathNormalForm

/-!
Steps that go up. A step `..` that finds no folder to leave is lost, so steps that
are resolved on their own and joined behind a parent lead to the same place as the
steps taken from the parent exactly when they never climb above their own start, or
when the parent is the root, above which nothing is.
-/

namespace StorageScenario.ObjectPath

def goesDown (piece : String) : Bool :=
  piece ≠ "" && piece ≠ "." && piece ≠ ".."

/-- At no point have more steps gone up than down. -/
def StaysInside (steps : List String) : Prop :=
  ∀ start, start <+: steps → start.count ".." ≤ start.countP goesDown

/-- How far steps lead above a folder if they begin so many folders below it. -/
def climb : Nat → List String → Nat
  | _, [] => 0
  | depth, piece :: rest =>
      if piece = "" ∨ piece = "." then climb depth rest
      else if piece = ".." then
        match depth with
        | 0 => climb 0 rest + 1
        | depth + 1 => climb depth rest
      else climb (depth + 1) rest

section Steps

variable {piece : String}

theorem follow_idle (idle : piece = "" ∨ piece = ".") (trail : List String) :
    follow trail piece = trail :=
  if_pos idle

theorem follow_up (trail : List String) : follow trail ".." = trail.tail := by
  simp [follow]

theorem follow_down (down : goesDown piece) (trail : List String) :
    follow trail piece = piece :: trail := by
  simp only [goesDown, Bool.and_eq_true, decide_eq_true_eq] at down
  simp [follow, down]

theorem step_cases (piece : String) :
    (piece = "" ∨ piece = ".") ∨ piece = ".." ∨ goesDown piece := by
  by_cases idle : piece = "" ∨ piece = "."
  · exact Or.inl idle
  · by_cases up : piece = ".."
    · exact Or.inr (Or.inl up)
    · rw [not_or] at idle
      exact Or.inr (Or.inr (by simp [goesDown, idle, up]))

theorem climb_idle (idle : piece = "" ∨ piece = ".") (depth : Nat) (rest : List String) :
    climb depth (piece :: rest) = climb depth rest := by
  cases depth <;> exact if_pos idle

theorem climb_up (rest : List String) : climb 0 (".." :: rest) = climb 0 rest + 1 := by
  simp [climb]

theorem climb_back (depth : Nat) (rest : List String) :
    climb (depth + 1) (".." :: rest) = climb depth rest := by
  simp [climb]

theorem climb_down (down : goesDown piece) (depth : Nat) (rest : List String) :
    climb depth (piece :: rest) = climb (depth + 1) rest := by
  simp only [goesDown, Bool.and_eq_true, decide_eq_true_eq] at down
  simp [climb, down]

/-- Of the folders that were there before, as many are left behind as the steps climb. -/
theorem steps_behind (steps own outer : List String) :
    steps.foldl follow (own ++ outer) =
      steps.foldl follow own ++ outer.drop (climb own.length steps) := by
  induction steps generalizing own outer with
  | nil => rfl
  | cons piece rest ih =>
      rw [List.foldl_cons, List.foldl_cons]
      rcases step_cases piece with idle | up | down
      · rw [follow_idle idle, follow_idle idle, climb_idle idle]
        exact ih own outer
      · subst up
        rw [follow_up, follow_up]
        cases own with
        | nil =>
            have above := ih [] outer.tail
            rw [List.nil_append, List.drop_tail] at above
            rw [List.nil_append, List.tail_nil, List.length_nil, climb_up]
            exact above
        | cons name trail =>
            rw [List.cons_append, List.tail_cons, List.tail_cons, List.length_cons, climb_back]
            exact ih trail outer
      · rw [follow_down down, follow_down down, climb_down down]
        exact ih (piece :: own) outer

theorem forall_prefix_cons (kept : List String → Prop) (piece : String) (rest : List String) :
    (∀ start, start <+: piece :: rest → kept start) ↔
      kept [] ∧ ∀ start, start <+: rest → kept (piece :: start) := by
  simp only [List.prefix_cons_iff]
  constructor
  · intro all
    exact ⟨all [] (Or.inl rfl), fun start begins => all _ (Or.inr ⟨start, rfl, begins⟩)⟩
  · rintro ⟨none, some⟩ start (rfl | ⟨longer, rfl, begins⟩)
    · exact none
    · exact some longer begins

/-- Steps climb nowhere if every beginning of them goes up at most as often as it can. -/
theorem climb_eq_zero_iff (depth : Nat) (steps : List String) :
    climb depth steps = 0 ↔
      ∀ start, start <+: steps → start.count ".." ≤ depth + start.countP goesDown := by
  induction steps generalizing depth with
  | nil => simp [climb]
  | cons piece rest ih =>
      rw [forall_prefix_cons]
      simp only [List.count_nil, Nat.zero_le, true_and, List.count_cons, List.countP_cons]
      rcases step_cases piece with idle | up | down
      · have notDown : goesDown piece = false := by
          rcases idle with rfl | rfl <;> rfl
        have notUp : (piece == "..") = false := by
          rcases idle with rfl | rfl <;> rfl
        rw [climb_idle idle, ih]
        simp [notDown, notUp]
      · subst up
        have notDown : goesDown ".." = false := rfl
        simp only [notDown, beq_self_eq_true, if_true, Bool.false_eq_true, if_false]
        cases depth with
        | zero =>
            rw [climb_up]
            constructor
            · intro none
              omega
            · intro all
              have first := all [] List.nil_prefix
              simp at first
        | succ depth =>
            rw [climb_back, ih]
            apply forall₂_congr
            intro start _
            omega
      · have notUp : (piece == "..") = false := by
          simp only [goesDown, Bool.and_eq_true, decide_eq_true_eq] at down
          simp [down.2]
        rw [climb_down down, ih]
        simp only [down, notUp, if_true, Bool.false_eq_true, if_false]
        apply forall₂_congr
        intro start _
        omega

theorem stays_inside_iff (steps : List String) : StaysInside steps ↔ climb 0 steps = 0 := by
  rw [climb_eq_zero_iff]
  simp [StaysInside]

instance (steps : List String) : Decidable (StaysInside steps) :=
  decidable_of_iff (climb 0 steps = 0) (stays_inside_iff steps).symm

end Steps

/-- Steps behind others resolve to what they resolve to alone, behind what they leave
of the names before them. -/
theorem resolve_append (first steps : List String) :
    resolve (first ++ steps) =
      (resolve first).take ((resolve first).length - climb 0 steps) ++ resolve steps := by
  have behind := steps_behind steps [] (first.foldl follow [])
  unfold resolve
  rw [List.foldl_append, ← List.nil_append (first.foldl follow []), behind, List.reverse_append,
    List.reverse_drop, List.nil_append, List.length_reverse, List.length_nil]

theorem climb_names {down : List String} (proper : AreNames down) (depth : Nat) :
    climb depth down = 0 := by
  induction down generalizing depth with
  | nil => rfl
  | cons name rest ih =>
      obtain ⟨isName, restNames⟩ := are_names_cons.mp proper
      have goes : goesDown name := by
        simp [goesDown, isName.1, isName.2.1, isName.2.2.1]
      rw [climb_down goes]
      exact ih restNames (depth + 1)

theorem clean_stays_inside {path : String} (isClean : clean path = path) :
    StaysInside (pieces path) := by
  have proper := names_are_names path
  rw [stays_inside_iff]
  by_cases atRoot : names path = []
  · rw [(names_eq_nil_iff isClean).mp atRoot]
    rfl
  · have asNames := pieces_render atRoot proper
    rw [render_names isClean] at asNames
    rw [asNames]
    exact climb_names proper 0

/-- A path that climbs nowhere is found behind the names on its parent. -/
theorem names_join_inside (parent : String) {path : String} (stays : StaysInside (pieces path)) :
    names (join parent path) = names parent ++ names path := by
  rw [names_join, resolve_append, (stays_inside_iff _).mp stays, Nat.sub_zero, List.take_length]
  rfl

theorem clean_eq_of_join {parent first second : String} (firstStays : StaysInside (pieces first))
    (secondStays : StaysInside (pieces second)) (same : join parent first = join parent second) :
    clean first = clean second := by
  have split := congrArg names same
  rw [names_join_inside parent firstStays, names_join_inside parent secondStays,
    List.append_right_inj] at split
  rw [clean_eq_render, clean_eq_render, split]

theorem names_join_join (outer inner path : String) :
    names (join (join outer inner) path) =
      resolve (pieces outer ++ (pieces inner ++ pieces path)) := by
  have joined : resolve (pieces (join outer inner)) = resolve (pieces outer ++ pieces inner) :=
    names_join outer inner
  rw [names_join, ← List.append_assoc, resolve_append, joined, ← resolve_append]

/-- Joining is associative as long as the inner steps stay below their own start, and
below the root in any case. -/
theorem join_join_iff (outer inner path : String) :
    join outer (join inner path) = join (join outer inner) path ↔
      clean outer = "" ∨ StaysInside (pieces inner ++ pieces path) := by
  have apart : names (join outer (join inner path)) =
      names outer ++ resolve (pieces inner ++ pieces path) := by
    rw [names_join_clean outer (clean_join inner path), names_join]
  have together : names (join (join outer inner) path) =
      (names outer).take ((names outer).length - climb 0 (pieces inner ++ pieces path)) ++
        resolve (pieces inner ++ pieces path) := by
    rw [names_join_join, resolve_append]
    rfl
  rw [clean_eq_empty_iff, stays_inside_iff]
  constructor
  · intro same
    rw [same, together, List.append_left_inj, List.take_eq_self_iff] at apart
    rw [← List.length_eq_zero_iff]
    omega
  · intro condition
    apply eq_of_names (clean_join _ _) (clean_join _ _)
    rw [apart, together, List.append_left_inj, eq_comm, List.take_eq_self_iff]
    rcases condition with atRoot | inside
    · rw [atRoot]
      exact Nat.zero_le _
    · rw [inside]
      exact Nat.le_refl _

end StorageScenario.ObjectPath
