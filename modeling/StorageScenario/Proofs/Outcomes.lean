import StorageScenario.Cleanup
import StorageScenario.Traversal

/-!
Outcomes of work. A successful action is described by its value and by the
context and storage it leaves; the lines it logs stay open, since no action
reads them back. A loop over entries follows a pure fold when each of its
rounds does, and it can only fail as one of its rounds fails.
-/

namespace StorageScenario.Work

section Actions

variable {ε σ α β : Type}

theorem bind_ok_iff {action : EStateM ε σ α} {next : α → EStateM ε σ β} {before after : σ}
    {value : β} :
    (action >>= next) before = .ok value after ↔
      ∃ middle between, action before = .ok middle between ∧
        next middle between = .ok value after := by
  cases ran : action before with
  | ok middle between =>
      simp only [bind, EStateM.bind, ran]
      constructor
      · intro rest
        exact ⟨middle, between, rfl, rest⟩
      · rintro ⟨_, _, same, rest⟩
        cases same
        exact rest
  | error error between => simp [bind, EStateM.bind, ran]

theorem bind_error_iff {action : EStateM ε σ α} {next : α → EStateM ε σ β}
    {before after : σ} {error : ε} :
    (action >>= next) before = .error error after ↔
      action before = .error error after ∨
        ∃ middle between, action before = .ok middle between ∧
          next middle between = .error error after := by
  cases ran : action before with
  | ok middle between =>
      simp only [bind, EStateM.bind, ran, reduceCtorEq, false_or]
      constructor
      · intro rest
        exact ⟨middle, between, rfl, rest⟩
      · rintro ⟨_, _, same, rest⟩
        cases same
        exact rest
  | error error between => simp [bind, EStateM.bind, ran]

theorem bind_of_ok {action : EStateM ε σ α} {next : α → EStateM ε σ β}
    {before between : σ} {value : α} (ran : action before = .ok value between) :
    (action >>= next) before = next value between := by
  simp only [bind, EStateM.bind, ran]

theorem bind_of_error {action : EStateM ε σ α} {next : α → EStateM ε σ β}
    {before after : σ} {error : ε} (failed : action before = .error error after) :
    (action >>= next) before = .error error after :=
  bind_error_iff.mpr (Or.inl failed)

theorem ok_of_run' {action : EStateM ε σ α} {before : σ} {value : α}
    (ran : action.run' before = some value) : ∃ after, action before = .ok value after := by
  unfold EStateM.run' EStateM.run at ran
  cases result : action before with
  | ok found after =>
      rw [result] at ran
      cases ran
      exact ⟨after, rfl⟩
  | error cause after =>
      rw [result] at ran
      cases ran

theorem run'_of_ok {action : EStateM ε σ α} {before after : σ} {value : α}
    (ran : action before = .ok value after) : action.run' before = some value := by
  unfold EStateM.run' EStateM.run
  rw [ran]

/-- Every failure of the action, with the state it leaves, is among those allowed. -/
def FailsOnly (allowed : ε → σ → Prop) (action : EStateM ε σ α) : Prop :=
  ∀ before error after, action before = .error error after → allowed error after

variable {allowed : ε → σ → Prop}

theorem pure_fails_only (value : α) : FailsOnly allowed (pure value : EStateM ε σ α) := by
  intro before error after failed
  cases failed

theorem bind_fails_only {action : EStateM ε σ α} {next : α → EStateM ε σ β}
    (first : FailsOnly allowed action) (rest : ∀ value, FailsOnly allowed (next value)) :
    FailsOnly allowed (action >>= next) := by
  intro before error after failed
  rcases bind_error_iff.mp failed with early | ⟨middle, between, _, late⟩
  · exact first before error after early
  · exact rest middle between error after late

theorem forM_fails_only {step : α → EStateM ε σ Unit} (entries : List α)
    (each : ∀ entry ∈ entries, FailsOnly allowed (step entry)) :
    FailsOnly allowed (entries.forM step) := by
  induction entries with
  | nil => exact pure_fails_only ()
  | cons entry rest ih =>
      apply bind_fails_only (each entry (by simp))
      intro _
      exact ih fun other member => each other (by simp [member])

/-- If every round succeeds and takes a state that follows a value to one that
follows the next value, then the loop succeeds and follows the fold. -/
theorem forM_follows (follows : σ → β → Prop) {step : α → EStateM ε σ Unit}
    {next : β → α → β} (entries : List α)
    (each : ∀ entry ∈ entries, ∀ before value, follows before value →
      ∃ after, step entry before = .ok () after ∧ follows after (next value entry))
    {before : σ} {value : β} (start : follows before value) :
    ∃ after, entries.forM step before = .ok () after ∧
      follows after (entries.foldl next value) := by
  induction entries generalizing before value with
  | nil => exact ⟨before, rfl, start⟩
  | cons entry rest ih =>
      obtain ⟨between, ran, kept⟩ := each entry (by simp) before value start
      obtain ⟨after, ranRest, keptRest⟩ :=
        ih (fun other member => each other (by simp [member])) kept
      exact ⟨after, bind_ok_iff.mpr ⟨(), between, ran, ranRest⟩, keptRest⟩

/-- A loop whose rounds fail at the entries that do not pass, and change nothing there,
follows the fold over the entries before the first of those. -/
theorem forM_until (follows : σ → β → Prop) {step : α → EStateM ε σ Unit}
    {next : β → α → β} (passes : α → Bool) (entries : List α)
    (goesOn : ∀ entry ∈ entries, passes entry → ∀ before value, follows before value →
      ∃ after, step entry before = .ok () after ∧ follows after (next value entry))
    (stops : ∀ entry ∈ entries, passes entry = false →
      ∀ before value, follows before value →
      ∃ error after, step entry before = .error error after ∧ follows after value)
    {before : σ} {value : β} (start : follows before value) :
    ∃ after, follows after ((entries.takeWhile passes).foldl next value) ∧
      (entries.forM step before = .ok () after ∧ entries.all passes = true ∨
        ∃ error, entries.forM step before = .error error after ∧
          entries.all passes = false) := by
  induction entries generalizing before value with
  | nil => exact ⟨before, start, Or.inl ⟨rfl, rfl⟩⟩
  | cons entry rest ih =>
      cases passed : passes entry with
      | false =>
          obtain ⟨error, after, failed, kept⟩ :=
            stops entry List.mem_cons_self passed before value start
          refine ⟨after, ?_, Or.inr ⟨error, bind_error_iff.mpr (Or.inl failed), ?_⟩⟩
          · rw [List.takeWhile_cons_of_neg (by simp [passed])]
            exact kept
          · rw [List.all_cons, passed, Bool.false_and]
      | true =>
          obtain ⟨between, ran, kept⟩ :=
            goesOn entry List.mem_cons_self passed before value start
          obtain ⟨after, keptRest, ended⟩ := ih
            (fun other member => goesOn other (List.mem_cons_of_mem entry member))
            (fun other member => stops other (List.mem_cons_of_mem entry member)) kept
          rw [List.takeWhile_cons_of_pos passed, List.all_cons, passed, Bool.true_and]
          refine ⟨after, keptRest, ended.imp ?_ ?_⟩
          · rintro ⟨ranRest, allPass⟩
            exact ⟨bind_ok_iff.mpr ⟨(), between, ran, ranRest⟩, allPass⟩
          · rintro ⟨error, failed, oneFails⟩
            exact ⟨error, bind_error_iff.mpr (Or.inr ⟨(), between, ran, failed⟩), oneFails⟩

theorem forM_ok_each (kept : σ → Prop) {told : α → Prop} {step : α → EStateM ε σ Unit}
    (entries : List α)
    (each : ∀ entry ∈ entries, ∀ before after, kept before →
      step entry before = .ok () after → kept after ∧ told entry)
    {before after : σ} (start : kept before) (ran : entries.forM step before = .ok () after) :
    ∀ entry ∈ entries, told entry := by
  induction entries generalizing before with
  | nil => simp
  | cons head rest ih =>
      obtain ⟨_, between, ranHead, ranRest⟩ := bind_ok_iff.mp ran
      obtain ⟨keptHead, toldHead⟩ := each head (by simp) before between start ranHead
      have toldRest := ih (fun other member => each other (by simp [member])) keptHead ranRest
      intro entry member
      rcases List.mem_cons.mp member with same | later
      · exact same ▸ toldHead
      · exact toldRest entry later

theorem forM_ok_rounds {leads : σ → σ → Prop} (stays : ∀ state, leads state state)
    (goesOn : ∀ first second third, leads first second → leads second third →
      leads first third)
    {step : α → EStateM ε σ Unit} (entries : List α)
    (each : ∀ entry ∈ entries, ∀ before after, step entry before = .ok () after →
      leads before after)
    {before after : σ} (ran : entries.forM step before = .ok () after) :
    leads before after ∧ ∀ entry ∈ entries, ∃ first last,
      leads before first ∧ step entry first = .ok () last ∧ leads last after := by
  induction entries generalizing before with
  | nil =>
      cases ran
      exact ⟨stays _, by simp⟩
  | cons head rest ih =>
      obtain ⟨_, between, ranHead, ranRest⟩ := bind_ok_iff.mp ran
      have begins := each head List.mem_cons_self before between ranHead
      obtain ⟨ends, rounds⟩ :=
        ih (fun other member => each other (List.mem_cons_of_mem head member)) ranRest
      refine ⟨goesOn before between after begins ends, ?_⟩
      intro entry member
      rcases List.mem_cons.mp member with same | later
      · exact ⟨before, between, stays before, same ▸ ranHead, ends⟩
      · obtain ⟨first, last, reached, ranEntry, leaves⟩ := rounds entry later
        exact ⟨first, last, goesOn before between first begins reached, ranEntry, leaves⟩

def left (action : EStateM ε σ α) (before : σ) : σ :=
  match action before with
  | .ok _ after => after
  | .error _ after => after

theorem left_of_ok {action : EStateM ε σ α} {before after : σ} {value : α}
    (ran : action before = .ok value after) : left action before = after := by
  unfold left
  rw [ran]

theorem left_of_error {action : EStateM ε σ α} {before after : σ} {error : ε}
    (failed : action before = .error error after) : left action before = after := by
  unfold left
  rw [failed]

theorem left_of_same {first second : EStateM ε σ α} {before between : σ}
    (same : first before = second between) : left first before = left second between := by
  unfold left
  rw [same]

def outcome (action : EStateM ε σ α) (before : σ) : Except ε α :=
  match action before with
  | .ok value _ => .ok value
  | .error error _ => .error error

theorem outcome_of_ok {action : EStateM ε σ α} {before after : σ} {value : α}
    (ran : action before = .ok value after) : outcome action before = .ok value := by
  unfold outcome
  rw [ran]

theorem outcome_of_error {action : EStateM ε σ α} {before after : σ} {error : ε}
    (failed : action before = .error error after) : outcome action before = .error error := by
  unfold outcome
  rw [failed]

/-- Every round is made, whatever has become of those before it. -/
def leftByEach (step : α → EStateM ε σ Unit) (entries : List α) (before : σ) : σ :=
  entries.foldl (fun state entry => left (step entry) state) before

theorem left_by_each_follows (follows : σ → β → Prop) {step : α → EStateM ε σ Unit}
    {next : β → α → β}
    (each : ∀ entry before value, follows before value →
      follows (left (step entry) before) (next value entry))
    (entries : List α) {before : σ} {value : β} (start : follows before value) :
    follows (leftByEach step entries before) (entries.foldl next value) := by
  induction entries generalizing before value with
  | nil => exact start
  | cons entry rest ih => exact ih (each entry before value start)

theorem left_by_each_of_ok {step : α → EStateM ε σ Unit} (entries : List α)
    {before after : σ} (ran : entries.forM step before = .ok () after) :
    leftByEach step entries before = after := by
  induction entries generalizing before with
  | nil =>
      cases ran
      rfl
  | cons entry rest ih =>
      obtain ⟨_, between, ranEntry, ranRest⟩ := bind_ok_iff.mp ran
      have begins := left_of_ok ranEntry
      unfold leftByEach
      rw [List.foldl_cons, begins]
      exact ih ranRest

def Keeps (kept : σ → Prop) (action : EStateM ε σ α) : Prop :=
  ∀ before, kept before → kept (left action before)

variable {kept : σ → Prop}

theorem pure_keeps (value : α) : Keeps kept (pure value : EStateM ε σ α) :=
  fun _ start => start

theorem check_keeps (result : Except ScenarioError α) :
    Keeps kept (check result : EStateM ScenarioError σ α) := by
  intro before start
  cases result <;> exact start

theorem bind_keeps {action : EStateM ε σ α} {next : α → EStateM ε σ β}
    (first : Keeps kept action) (rest : ∀ value, Keeps kept (next value)) :
    Keeps kept (action >>= next) := by
  intro before start
  have between := first before start
  cases ran : action before with
  | ok value middle =>
      rw [left_of_ok ran] at between
      have same : left (action >>= next) before = left (next value) middle := by
        simp only [left, bind, EStateM.bind, ran]
      rw [same]
      exact rest value middle between
  | error error after =>
      rw [left_of_error ran] at between
      rw [left_of_error (bind_error_iff.mpr (Or.inl ran))]
      exact between

theorem forM_keeps {step : α → EStateM ε σ Unit} (entries : List α)
    (each : ∀ entry ∈ entries, Keeps kept (step entry)) : Keeps kept (entries.forM step) := by
  induction entries with
  | nil => exact pure_keeps ()
  | cons entry rest ih =>
      apply bind_keeps (each entry (by simp))
      intro _
      exact ih fun other member => each other (by simp [member])

end Actions

section Visiting

variable {σ : Type} {callbacks : Callbacks σ} {resource : Resource} {definition : Definition}
  (children : EStateM ScenarioError σ Unit) {before between after : σ}
  (sameLevel : resource.level = definition.level)
include sameLevel

theorem visit_at_level :
    callbacks.visit resource definition children = (do
      match ← callbacks.invoke resource definition with
      | .descend => children
      | .skipChildren => pure ()) := by
  unfold Callbacks.visit
  rw [Definition.check_level_same sameLevel]
  rfl

theorem visit_of_descend
    (called : callbacks.invoke resource definition before = .ok .descend between) :
    callbacks.visit resource definition children before = children between := by
  rw [visit_at_level children sameLevel]
  simp only [bind, EStateM.bind, called]

theorem visit_of_error {error : ScenarioError}
    (failed : callbacks.invoke resource definition before = .error error after) :
    callbacks.visit resource definition children before = .error error after := by
  rw [visit_at_level children sameLevel]
  exact bind_error_iff.mpr (Or.inl failed)

end Visiting

theorem visit_keeps {σ : Type} {kept : σ → Prop} {callbacks : Callbacks σ}
    {resource : Resource} {definition : Definition} {children : EStateM ScenarioError σ Unit}
    (called : resource.level = definition.level →
      Keeps kept (callbacks.invoke resource definition))
    (below : Keeps kept children) : Keeps kept (callbacks.visit resource definition children) := by
  by_cases sameLevel : resource.level = definition.level
  · rw [visit_at_level children sameLevel]
    refine bind_keeps (called sameLevel) fun traversal => ?_
    cases traversal with
    | descend => exact below
    | skipChildren => exact pure_keeps ()
  · unfold Callbacks.visit
    rw [Definition.check_level_other sameLevel]
    exact fun _ start => start

/-- What every callback keeps, whatever it is called with, a whole walk keeps. A callback is
only called with a resource at the level of its definition. -/
theorem traverse_keeps {σ : Type} {kept : σ → Prop} {callbacks : Callbacks σ}
    (called : ∀ resource definition, resource.level = definition.level →
      Keeps kept (callbacks.invoke resource definition))
    (definition : Definition) (resource : Resource) :
    Keeps kept (definition.traverse callbacks resource) := by
  have object : ∀ resource inner, Keeps kept (callbacks.visitObject resource inner) :=
    fun _ _ => visit_keeps (called _ _) (pure_keeps ())
  have container : ∀ resource inner, Keeps kept (callbacks.visitContainer resource inner) := by
    intro resource inner
    refine visit_keeps (called _ _) (forM_keeps _ fun entry _ => ?_)
    exact bind_keeps (check_keeps _) fun child => object child _
  cases definition with
  | service inner =>
      refine visit_keeps (called _ _) (forM_keeps _ fun entry _ => ?_)
      exact bind_keeps (check_keeps _) fun child => container child _
  | container inner => exact container resource inner
  | object inner => exact object resource inner

section Failing

variable {σ : Type} {allowed : ScenarioError → σ → Prop} {callbacks : Callbacks σ}

theorem visit_fails_only {resource : Resource} {definition : Definition}
    {children : EStateM ScenarioError σ Unit} (sameLevel : resource.level = definition.level)
    (called : FailsOnly allowed (callbacks.invoke resource definition))
    (below : FailsOnly allowed children) :
    FailsOnly allowed (callbacks.visit resource definition children) := by
  rw [visit_at_level children sameLevel]
  refine bind_fails_only called fun traversal => ?_
  cases traversal with
  | descend => exact below
  | skipChildren => exact pure_fails_only ()

/-- A walk that starts at one level goes on at one level, so it fails only as its
callbacks do. -/
theorem traverse_fails_only
    (called : ∀ resource definition, resource.level = definition.level →
      FailsOnly allowed (callbacks.invoke resource definition))
    {definition : Definition} {resource : Resource}
    (sameLevel : definition.level = resource.level) :
    FailsOnly allowed (definition.traverse callbacks resource) := by
  have object : ∀ handle inner,
      FailsOnly allowed (callbacks.visitObject (.object handle) inner) :=
    fun _ _ => visit_fails_only rfl (called _ _ rfl) (pure_fails_only ())
  have container : ∀ handle inner,
      FailsOnly allowed (callbacks.visitContainer (.container handle) inner) := by
    intro handle inner
    refine visit_fails_only rfl (called _ _ rfl) (forM_fails_only _ fun entry _ => ?_)
    exact object _ _
  cases definition <;> cases resource <;> try cases sameLevel
  · refine visit_fails_only rfl (called _ _ rfl) (forM_fails_only _ fun entry _ => ?_)
    exact container _ _
  · exact container _ _
  · exact object _ _

end Failing

theorem visit_ok_iff {σ : Type} {callbacks : Callbacks σ} {resource : Resource}
    {definition : Definition} {children : EStateM ScenarioError σ Unit} {before after : σ}
    (sameLevel : resource.level = definition.level) :
    callbacks.visit resource definition children before = .ok () after ↔
      (∃ between, callbacks.invoke resource definition before = .ok .descend between ∧
        children between = .ok () after) ∨
      callbacks.invoke resource definition before = .ok .skipChildren after := by
  rw [visit_at_level children sameLevel, bind_ok_iff]
  constructor
  · rintro ⟨traversal, between, ran, rest⟩
    cases traversal with
    | descend => exact Or.inl ⟨between, ran, rest⟩
    | skipChildren =>
        cases rest
        exact Or.inr ran
  · rintro (⟨between, ran, rest⟩ | ran)
    · exact ⟨.descend, between, ran, rest⟩
    · exact ⟨.skipChildren, after, ran, rfl⟩

variable {α β : Type}

theorem note_fails_only {allowed : ScenarioError → Session → Prop} (severity : Severity)
    (text : String) : FailsOnly allowed (note severity text) := by
  intro before error after failed
  cases failed

theorem update_context_fails_only {allowed : ScenarioError → Session → Prop}
    (change : Context → Context) : FailsOnly allowed (updateContext change) := by
  intro before error after failed
  cases failed

theorem access_error {operation : Operation} {resource : String} {call : Access α}
    {before after : Session} {error : ScenarioError}
    (failed : access operation resource call before = .error error after) :
    ∃ cause, call before.storage = .error cause after.storage ∧
      error = .backend operation resource cause := by
  unfold access at failed
  cases ran : call before.storage with
  | ok value storage => simp [ran] at failed
  | error cause storage =>
      rw [ran] at failed
      cases failed
      exact ⟨cause, rfl, rfl⟩

/-- The action succeeds with a value and leaves this context and this storage. -/
def Yields (action : Work α) (before : Session) (value : α) (context : Context)
    (storage : Storage) : Prop :=
  ∃ log, action before = .ok value ⟨context, storage, log⟩

theorem pure_yields (value : α) (session : Session) :
    (pure value : Work α).Yields session value session.context session.storage :=
  ⟨session.log, rfl⟩

theorem write_yields (severity : Severity) (text : String) (session : Session) :
    (write severity text).Yields session () session.context session.storage :=
  ⟨_, rfl⟩

theorem note_yields (severity : Severity) (text : String) (session : Session) :
    (note severity text).Yields session () session.context session.storage :=
  ⟨_, rfl⟩

theorem record_yields (failure : SoftFailure) (session : Session) :
    (record failure).Yields session () (session.context.record failure) session.storage :=
  ⟨_, rfl⟩

theorem track_yields (resource : Resource) (session : Session) :
    (track resource).Yields session () (session.context.track resource) session.storage :=
  ⟨_, rfl⟩

theorem update_context_yields (change : Context → Context) (session : Session) :
    (updateContext change).Yields session () (change session.context) session.storage :=
  ⟨session.log, rfl⟩

theorem generate_name_yields (session : Session) :
    generateName.Yields session session.context.names.next.1
      { session.context with names := session.context.names.next.2 } session.storage :=
  ⟨_, rfl⟩

theorem access_yields {operation : Operation} {resource : String} {call : Access α}
    {session : Session} {value : α} {storage : Storage}
    (ran : call session.storage = .ok value storage) :
    (access operation resource call).Yields session value session.context storage :=
  ⟨session.log, by simp only [access, ran]⟩

theorem bind_yields {action : Work α} {next : α → Work β} {before : Session} {middle : α}
    {value : β} {context last : Context} {storage final : Storage}
    (first : action.Yields before middle context storage)
    (rest : ∀ log, (next middle).Yields ⟨context, storage, log⟩ value last final) :
    (action >>= next).Yields before value last final := by
  obtain ⟨log, ran⟩ := first
  obtain ⟨finished, ranRest⟩ := rest log
  exact ⟨finished, bind_ok_iff.mpr ⟨middle, _, ran, ranRest⟩⟩

section Visits

variable {callbacks : Callbacks Session} {resource : Resource} {definition : Definition}
  {children : Work Unit} {before : Session} {context last : Context} {storage final : Storage}

theorem visit_descends (sameLevel : resource.level = definition.level)
    (called : Yields (callbacks.invoke resource definition) before .descend context storage)
    (rest : ∀ log, children.Yields ⟨context, storage, log⟩ () last final) :
    Yields (callbacks.visit resource definition children) before () last final := by
  obtain ⟨log, ran⟩ := called
  obtain ⟨finished, ranRest⟩ := rest log
  exact ⟨finished, (visit_ok_iff sameLevel).mpr (Or.inl ⟨_, ran, ranRest⟩)⟩

theorem visit_skips (sameLevel : resource.level = definition.level)
    (called : Yields (callbacks.invoke resource definition) before .skipChildren context storage) :
    Yields (callbacks.visit resource definition children) before () context storage := by
  obtain ⟨log, ran⟩ := called
  exact ⟨log, (visit_ok_iff sameLevel).mpr (Or.inr ran)⟩

end Visits

theorem ok_after_yields {action : Work α} {next : α → Work β} {before after : Session}
    {middle : α} {value : β} {context : Context} {storage : Storage}
    (ran : (action >>= next) before = .ok value after)
    (first : action.Yields before middle context storage) :
    ∃ log, next middle ⟨context, storage, log⟩ = .ok value after := by
  obtain ⟨log, ranFirst⟩ := first
  obtain ⟨other, between, ranAction, ranRest⟩ := bind_ok_iff.mp ran
  rw [ranFirst] at ranAction
  cases ranAction
  exact ⟨log, ranRest⟩

theorem yields_of_ok {action : Work α} {before after : Session} {value other : α}
    {context : Context} {storage : Storage} (yields : action.Yields before value context storage)
    (ran : action before = .ok other after) :
    other = value ∧ after.context = context ∧ after.storage = storage := by
  obtain ⟨log, same⟩ := yields
  rw [same] at ran
  cases ran
  exact ⟨rfl, rfl, rfl⟩

end StorageScenario.Work
