import Mathlib.Logic.Relation
import StorageScenario.Proofs.CleanupRun
import StorageScenario.Proofs.CreationCalls
import StorageScenario.Proofs.ValidationReads
import StorageScenario.Registry

/-!
A dry run from its first resource on. All resources of a scenario come from a root, and
the root of a dry run is a rehearsal. Going up or down, creating and tracking never
leave the back-end of a resource, so a scenario never comes to hold anything else. What
is done with rehearsals touches no storage and cannot fail in a back-end.
-/

namespace StorageScenario

namespace Resource

/-- What a dry run tracks: a container or an object that is not there. -/
def Rehearsed (resource : Resource) : Prop :=
  (∃ location, resource.serviceHandle = .rehearsal location) ∧ resource.level ≠ .service

end Resource

open Work

namespace Creation

variable {location : Location}

theorem call_rehearses {call : Call} (rehearsal : call.resource.serviceHandle = .rehearsal location)
    (storage : Storage) : call.run storage = .ok true storage := by
  cases call with
  | container handle properties =>
      obtain ⟨_, name⟩ := handle
      cases rehearsal
      rfl
  | object handle body properties =>
      obtain ⟨⟨_, name⟩, path, kind⟩ := handle
      cases rehearsal
      rfl

theorem make_all_rehearses (calls : List Call)
    (rehearsals : ∀ call ∈ calls, call.resource.serviceHandle = .rehearsal location)
    (storage : Storage) : makeAll calls storage = .ok (calls.map Call.resource) storage := by
  induction calls with
  | nil => rfl
  | cons call rest ih =>
      have ran := call_rehearses (rehearsals call (by simp)) storage
      have ranRest := ih fun other member => rehearsals other (by simp [member])
      rw [make_all_cons ran ranRest]
      rfl

theorem performed_rehearses {α : Type} {calls : List Call} {before : Session} {value : α}
    {result : EStateM.Result ScenarioError Session α}
    (performed : Performed calls before value result)
    (rehearsals : ∀ call ∈ calls, call.resource.serviceHandle = .rehearsal location) :
    ∃ log, result =
      .ok value ⟨before.context.trackAll (calls.map Call.resource), before.storage, log⟩ := by
  cases performed with
  | all made after ran tracked =>
      have whole := make_all_rehearses calls rehearsals before.storage
      obtain ⟨sameMade, sameStorage⟩ := EStateM.Result.ok.inj (ran.symm.trans whole)
      refine ⟨after.log, ?_⟩
      rw [← sameMade, ← sameStorage, ← tracked]
  | upTo done call later split made between cause _ ran failed tracked =>
      have planned : call ∈ calls := by simp [split]
      cases failed.symm.trans (call_rehearses (rehearsals call planned) between)

theorem call_level (call : Call) : call.resource.level ≠ .service := by
  cases call <;> exact Level.noConfusion

theorem create_rehearses {base : Resource} {definition : Definition} (session : Session)
    (rehearsal : base.serviceHandle = .rehearsal location)
    (shallow : base.level ≤ definition.level) :
    ∃ target names made,
      (create base definition).Yields session target
        { session.context with names := names, created := session.context.created ++ made }
        session.storage ∧
      target.serviceHandle = .rehearsal location ∧
      ∀ resource ∈ made, resource.Rehearsed := by
  have distance : definition.level.depth =
      base.level.depth + (definition.level.depth - base.level.depth) :=
    (Nat.add_sub_cancel' shallow).symm
  obtain ⟨lifted, target, ⟨log, ranLift⟩, sameLevel, _, reached, lowered⟩ :=
    Definition.lift_then_lower _ definition base session distance
  have performed := create_performs shallow ranLift sameLevel lowered
  have rehearsals : ∀ call ∈ plan base lifted,
      call.resource.serviceHandle = .rehearsal location :=
    fun call planned => (plan_service planned).trans rehearsal
  obtain ⟨finished, ran⟩ := performed_rehearses performed rehearsals
  refine ⟨target, _, (plan base lifted).map Call.resource, ⟨finished, ran⟩,
    (Resource.reach_service _ reached).trans rehearsal, ?_⟩
  · intro resource member
    obtain ⟨call, planned, same⟩ := List.mem_map.mp member
    rw [← same]
    exact ⟨⟨location, rehearsals call planned⟩, call_level call⟩

end Creation

namespace Cleanup

theorem delete_rehearses {resource : Resource} (rehearsed : resource.Rehearsed)
    (session : Session) :
    (delete resource).Yields session () session.context session.storage := by
  obtain ⟨⟨location, rehearsal⟩, notService⟩ := rehearsed
  have call : ∀ storage, resource.delete storage = .ok () storage := by
    intro storage
    cases resource with
    | service handle => exact absurd rfl notService
    | container handle =>
        obtain ⟨_, name⟩ := handle
        cases rehearsal
        rfl
    | object handle =>
        obtain ⟨⟨_, name⟩, path, kind⟩ := handle
        cases rehearsal
        rfl
  exact delete_yields (call _)

theorem delete_all_rehearses (resources : List Resource)
    (rehearsed : ∀ resource ∈ resources, resource.Rehearsed) (session : Session) :
    Yields (resources.forM delete) session () session.context session.storage := by
  induction resources generalizing session with
  | nil => exact pure_yields () session
  | cons resource rest ih =>
      refine bind_yields (delete_rehearses (rehearsed resource (by simp)) session) fun log => ?_
      exact ih (fun other member => rehearsed other (by simp [member])) _

theorem cleanup_rehearses (session : Session)
    (rehearsed : ∀ resource ∈ session.context.created, resource.Rehearsed) :
    cleanup.Yields session () { session.context with created := [] } session.storage := by
  refine bind_yields (pure_yields session.context session) fun log => ?_
  refine bind_yields (update_context_yields _ _) fun log => ?_
  exact delete_all_rehearses _ (fun resource member => rehearsed resource (by simpa using member)) _

end Cleanup

theorem Registry.root_rehearses (registry : Registry) (location : Location)
    (preferred : Option String) {session : Session} (dry : session.context.settings.dryRun) :
    (registry.rootResource location preferred).Yields session (.service (.rehearsal location))
      session.context session.storage := by
  refine bind_yields (pure_yields session.context session) fun log => ?_
  dsimp only
  rw [if_pos dry]
  exact bind_yields (note_yields _ _ _) fun _ => pure_yields _ _

namespace DryRun

/-- A scenario and the resources that it holds, each with the location at which its root
was asked for. -/
structure State where
  session : Session
  held : List (Location × Resource)

namespace State

def gain (state : State) (location : Location) (work : Work Resource) : State :=
  match work state.session with
  | .ok resource after => ⟨after, state.held ++ [(location, resource)]⟩
  | .error _ after => ⟨after, state.held⟩

def perform (state : State) (work : Work Unit) : State :=
  { state with session := left work state.session }

end State

inductive Step (registry : Registry) (state : State) : State → Prop
  | root (location : Location) (preferred : Option String) :
      Step registry state
        (state.gain location (registry.rootResource location preferred))
  | child {location : Location} {resource : Resource} (held : (location, resource) ∈ state.held)
      (name : String) (kind : EntityKind) :
      Step registry state (state.gain location (check (resource.child name kind)))
  | parent {location : Location} {resource parent : Resource}
      (held : (location, resource) ∈ state.held) (above : resource.parent? = some parent) :
      Step registry state (state.gain location (pure parent))
  | tracked {resource : Resource} (tracked : resource ∈ state.session.context.created) :
      Step registry state (state.gain resource.location (pure resource))
  | create {location : Location} {base : Resource} (held : (location, base) ∈ state.held)
      (definition : Definition) :
      Step registry state (state.gain location (create base definition))
  | validate {location : Location} {target : Resource} (held : (location, target) ∈ state.held)
      (definition : Definition) (compareContents : Bool) :
      Step registry state (state.perform (validate target definition compareContents))
  | cleanup : Step registry state (state.perform cleanup)

/-- Since `start` only names have been taken and rehearsals tracked. -/
structure Untouched (start session : Session) : Prop where
  storage : session.storage = start.storage
  context : ∃ names created,
    session.context = { start.context with names := names, created := created }
  tracked : ∀ resource ∈ session.context.created, resource.Rehearsed

/-- Nothing has been touched, and all that is held are rehearsals at their locations. -/
structure Rehearsing (start : Session) (state : State) : Prop where
  untouched : Untouched start state.session
  held : ∀ location resource, (location, resource) ∈ state.held →
    resource.serviceHandle = .rehearsal location

section Run

variable {registry : Registry} {start session after : Session} {state next : State}

theorem untouched_dry (dry : start.context.settings.dryRun) (untouched : Untouched start session) :
    session.context.settings.dryRun := by
  obtain ⟨names, created, same⟩ := untouched.context
  rw [same]
  exact dry

theorem untouched_of_yields {α : Type} {work : Work α} {value other : α} {names : NameSource}
    {made : List Resource} (untouched : Untouched start session)
    (yields : work.Yields session value
      { session.context with names := names, created := made } session.storage)
    (rehearsed : ∀ resource ∈ made, resource.Rehearsed) (ran : work session = .ok other after) :
    Untouched start after := by
  obtain ⟨_, sameContext, sameStorage⟩ := yields_of_ok yields ran
  obtain ⟨_, _, same⟩ := untouched.context
  refine ⟨sameStorage.trans untouched.storage, ⟨names, made, ?_⟩, ?_⟩
  · rw [sameContext, same]
  · rw [sameContext]
    exact rehearsed

theorem rehearsing_gain (rehearsing : Rehearsing start state) {location : Location}
    {work : Work Resource}
    (ends : match work state.session with
      | .ok resource after =>
          Untouched start after ∧ resource.serviceHandle = .rehearsal location
      | .error _ after => Untouched start after) :
    Rehearsing start (state.gain location work) := by
  unfold State.gain
  split at ends
  next resource after _ =>
    refine ⟨ends.1, ?_⟩
    intro place other member
    rcases List.mem_append.mp member with earlier | new
    · exact rehearsing.held place other earlier
    · cases List.mem_singleton.mp new
      exact ends.2
  next error after _ => exact ⟨ends, rehearsing.held⟩

/-- In a dry run a validation does nothing, and it can only refuse a resource at another
level. -/
theorem validate_rehearses (target : Resource) (definition : Definition) (compareContents : Bool)
    (dry : session.context.settings.dryRun) :
    let after := left (validate target definition compareContents) session
    after.context = session.context ∧ after.storage = session.storage ∧
      ∀ error ended, validate target definition compareContents session = .error error ended →
        ∃ expected actual, error = .levelMismatch expected actual := by
  intro after
  by_cases sameLevel : target.level = definition.level
  · obtain ⟨log, ran⟩ := Validation.validate_in_dry_run compareContents sameLevel dry
    have ended : after = ⟨session.context, session.storage, log⟩ := left_of_ok ran
    rw [ended]
    refine ⟨rfl, rfl, ?_⟩
    intro error later failed
    cases ran.symm.trans failed
  · have refused := Validation.validate_at_other_level compareContents sameLevel session
    have ended : after = session := left_of_error refused
    rw [ended]
    refine ⟨rfl, rfl, ?_⟩
    intro error later failed
    cases refused.symm.trans failed
    exact ⟨_, _, rfl⟩

theorem step_rehearses (dry : start.context.settings.dryRun)
    (rehearsing : Rehearsing start state) (step : Step registry state next) :
    Rehearsing start next := by
  have untouched := rehearsing.untouched
  have dryStill := untouched_dry dry untouched
  cases step with
  | root location preferred =>
      apply rehearsing_gain rehearsing
      obtain ⟨log, ran⟩ := registry.root_rehearses location preferred dryStill
      rw [ran]
      exact ⟨⟨untouched.storage, untouched.context, untouched.tracked⟩, rfl⟩
  | @child location resource held name kind =>
      apply rehearsing_gain rehearsing
      cases below : resource.child name kind with
      | ok child =>
          exact ⟨untouched, (Resource.child_service below).trans (rehearsing.held _ _ held)⟩
      | error error => exact untouched
  | @parent location resource parent held above =>
      apply rehearsing_gain rehearsing
      exact ⟨untouched, (Resource.parent_service above).trans (rehearsing.held _ _ held)⟩
  | @tracked resource tracked =>
      apply rehearsing_gain rehearsing
      -- No root is on record for a tracked resource: it is held at its own location.
      obtain ⟨⟨location, rehearsal⟩, _⟩ := untouched.tracked resource tracked
      have atLocation : resource.location = location := congrArg ServiceHandle.location rehearsal
      rw [atLocation]
      exact ⟨untouched, rehearsal⟩
  | @create location base held definition =>
      apply rehearsing_gain rehearsing
      by_cases shallow : base.level ≤ definition.level
      · obtain ⟨target, names, made, ⟨log, ran⟩, rehearsal, rehearsed⟩ :=
          Creation.create_rehearses state.session (rehearsing.held _ _ held) shallow
        rw [ran]
        refine ⟨untouched_of_yields untouched ⟨log, ran⟩ ?_ ran, rehearsal⟩
        intro resource member
        rcases List.mem_append.mp member with earlier | new
        · exact untouched.tracked resource earlier
        · exact rehearsed resource new
      · rw [Creation.create_deeper shallow]
        exact untouched
  | @validate location target held definition compareContents =>
      refine ⟨?_, rehearsing.held⟩
      obtain ⟨context, storage, _⟩ :=
        validate_rehearses target definition compareContents dryStill
      refine ⟨storage.trans untouched.storage, ?_, ?_⟩
      · exact untouched.context.imp fun _ => Exists.imp fun _ => context.trans
      · intro resource member
        exact untouched.tracked resource (context ▸ member)
  | cleanup =>
      refine ⟨?_, rehearsing.held⟩
      obtain ⟨log, ran⟩ := Cleanup.cleanup_rehearses state.session untouched.tracked
      change Untouched start (left cleanup state.session)
      rw [left_of_ok ran]
      exact untouched_of_yields untouched ⟨log, ran⟩ (by simp) ran

theorem run_rehearses (dry : start.context.settings.dryRun)
    (rehearsed : ∀ resource ∈ start.context.created, resource.Rehearsed)
    (run : Relation.ReflTransGen (Step registry) ⟨start, []⟩ state) :
    Rehearsing start state := by
  induction run with
  | refl => exact ⟨⟨rfl, ⟨_, _, rfl⟩, rehearsed⟩, by simp⟩
  | tail _ step ih => exact step_rehearses dry ih step

/-- A dry run that starts without a resource in hand touches nothing, however long it goes
on. Each resource it holds is a rehearsal at the location asked for, and each one it tracks
is a rehearsal too; the storage is the one of the start, and no failure is recorded. At any
point a root is given out at any location, a creation below a resource that is held
succeeds unless that resource is too deep, cleanup succeeds, and a validation changes
nothing in the context and can only refuse a resource at another level. -/
theorem dry_run_touches_nothing (dry : start.context.settings.dryRun)
    (rehearsed : ∀ resource ∈ start.context.created, resource.Rehearsed)
    (run : Relation.ReflTransGen (Step registry) ⟨start, []⟩ state) :
    (∀ location resource, (location, resource) ∈ state.held →
      resource.serviceHandle = .rehearsal location) ∧
    (∀ resource ∈ state.session.context.created, resource.Rehearsed) ∧
    state.session.storage = start.storage ∧
    state.session.context.failures = start.context.failures ∧
    (∀ location preferred, ∃ after,
      registry.rootResource location preferred state.session =
        .ok (.service (.rehearsal location)) after) ∧
    (∀ location base definition, (location, base) ∈ state.held →
      base.level ≤ definition.level →
        ∃ target after, create base definition state.session = .ok target after ∧
          target.serviceHandle = .rehearsal location) ∧
    (∃ after, cleanup state.session = .ok () after) ∧
    ∀ target definition compareContents,
      (left (validate target definition compareContents) state.session).context =
          state.session.context ∧
        ∀ error after, validate target definition compareContents state.session =
          .error error after → ∃ expected actual, error = .levelMismatch expected actual := by
  have rehearsing := run_rehearses dry rehearsed run
  have untouched := rehearsing.untouched
  have dryStill := untouched_dry dry untouched
  refine ⟨rehearsing.held, untouched.tracked, untouched.storage, ?_, ?_, ?_, ?_, ?_⟩
  · obtain ⟨_, _, same⟩ := untouched.context
    rw [same]
  · intro location preferred
    obtain ⟨log, ran⟩ := registry.root_rehearses location preferred dryStill
    exact ⟨_, ran⟩
  · intro location base definition held shallow
    obtain ⟨target, _, _, ⟨log, ran⟩, rehearsal, _⟩ :=
      Creation.create_rehearses state.session (rehearsing.held _ _ held) shallow
    exact ⟨target, _, ran, rehearsal⟩
  · obtain ⟨log, ran⟩ := Cleanup.cleanup_rehearses state.session untouched.tracked
    exact ⟨_, ran⟩
  · intro target definition compareContents
    obtain ⟨context, _, refuses⟩ :=
      validate_rehearses target definition compareContents dryStill
    exact ⟨context, refuses⟩

end Run

/-- A container with an object is created and cleaned up at a location that the account
offers and where it stores something. -/
theorem dry_run_touches_nothing_one_container :
    let account : Account := ⟨0, "account", .hierarchicalNamespace⟩
    let registry : Registry := ⟨[account]⟩
    let storage : Storage :=
      (Storage.fresh (.ofDirectories ⟨0⟩ [])).setStore account .blobFs
        (Table.singleton "n-0" (StoredContainer.created {}))
    let start : Session :=
      ⟨⟨"scenario", { dryRun := true }, .counting "n", [], []⟩, storage, []⟩
    let definition : Definition :=
      .container { objects := .flat (Table.singleton "a" { body := some (.buffered [1]) }) }
    let base : Resource := .service (.rehearsal .blobFs)
    let rooted := State.gain ⟨start, []⟩ .blobFs (registry.rootResource .blobFs none)
    let created := rooted.gain .blobFs (create base definition)
    Relation.ReflTransGen (Step registry) ⟨start, []⟩ created ∧
      created.held.map (fun entry => entry.2.canonicalName) =
        ["mock/blobfs", "mock/blobfs/n-0"] ∧
      created.session.context.created.map Resource.canonicalName =
        ["mock/blobfs/n-0", "mock/blobfs/n-0/a"] ∧
      created.session.storage = storage ∧
      ∃ after, cleanup created.session = .ok () after := by
  intro account registry storage start definition base rooted created
  have held : (Location.blobFs, base) ∈ rooted.held := List.mem_singleton.mpr rfl
  have run : Relation.ReflTransGen (Step registry) ⟨start, []⟩ created :=
    .tail (.tail .refl (.root .blobFs none)) (.create held definition)
  have nothingTracked : ∀ resource ∈ start.context.created, resource.Rehearsed := by
    intro resource member
    cases member
  have dry : start.context.settings.dryRun := rfl
  obtain ⟨_, _, same, _, _, _, cleaned, _⟩ := dry_run_touches_nothing dry nothingTracked run
  exact ⟨run, by decide +kernel, by decide +kernel, same, cleaned⟩

end DryRun

end StorageScenario
