import StorageScenario.Creation
import StorageScenario.Proofs.Outcomes

/-!
Lifting and lowering. Wrapping a definition step by step and going down again
from a base leads to the resource that bears the given names and to the
definition under its own name, so a creation never fails over levels: it fails
only where a back-end refuses to create something.
-/

namespace StorageScenario

def NameSource.skip : Nat → NameSource → NameSource
  | 0, source => source
  | count + 1, source => skip count source.next.2

namespace Resource

/-- The resource below a base that bears these names, the deepest name first. -/
def reach (base : Resource) (kind : EntityKind) : List String → Except ScenarioError Resource
  | [] => .ok base
  | name :: upper => do (← base.reach kind upper).child name kind

/-- Names of the object and of the container that a resource stands for. -/
def trail : Resource → List String
  | .service _ => []
  | .container handle => [handle.name]
  | .object handle => [handle.path, handle.container.name]

theorem as_container_ok {resource : Resource} {handle : ContainerHandle}
    (asked : resource.asContainer = .ok handle) : resource = .container handle := by
  cases resource with
  | service _ => cases asked
  | container _ =>
      cases asked
      rfl
  | object _ => cases asked

theorem as_object_ok {resource : Resource} {handle : ObjectHandle}
    (asked : resource.asObject = .ok handle) : resource = .object handle := by
  cases resource with
  | service _ => cases asked
  | container _ => cases asked
  | object _ =>
      cases asked
      rfl

theorem child_level {resource child : Resource} {name : String} {kind : EntityKind}
    (below : resource.child name kind = .ok child) :
    child.level.depth = resource.level.depth + 1 := by
  cases resource with
  | service handle => cases below; rfl
  | container handle => cases below; rfl
  | object handle => cases below

theorem child_service {resource child : Resource} {name : String} {kind : EntityKind}
    (below : resource.child name kind = .ok child) :
    child.serviceHandle = resource.serviceHandle := by
  cases resource with
  | service handle => cases below; rfl
  | container handle => cases below; rfl
  | object handle => cases below

theorem parent_service {resource parent : Resource} (above : resource.parent? = some parent) :
    parent.serviceHandle = resource.serviceHandle := by
  cases resource with
  | service handle => cases above
  | container handle => cases above; rfl
  | object handle => cases above; rfl

theorem child_any_kind {resource child : Resource} {name : String} {kind : EntityKind}
    (below : resource.child name kind = .ok child) (shallow : child.level ≠ .object)
    (other : EntityKind) : resource.child name other = .ok child := by
  cases resource with
  | service handle => exact below
  | container handle =>
      cases below
      exact absurd rfl shallow
  | object handle => cases below

theorem reach_cons_ok {base reached : Resource} {kind : EntityKind} {name : String}
    {upper : List String} :
    base.reach kind (name :: upper) = .ok reached ↔
      ∃ above, base.reach kind upper = .ok above ∧ above.child name kind = .ok reached := by
  simp only [reach, bind, Except.bind]
  cases base.reach kind upper <;> simp

theorem reach_service {base reached : Resource} {kind : EntityKind} (names : List String)
    (found : base.reach kind names = .ok reached) :
    reached.serviceHandle = base.serviceHandle := by
  induction names generalizing reached with
  | nil =>
      cases found
      rfl
  | cons name upper ih =>
      obtain ⟨above, foundAbove, below⟩ := reach_cons_ok.mp found
      exact (child_service below).trans (ih foundAbove)

theorem reach_any_kind {base reached : Resource} {kind : EntityKind} (names : List String)
    (found : base.reach kind names = .ok reached) (shallow : reached.level ≠ .object)
    (other : EntityKind) : base.reach other names = .ok reached := by
  induction names generalizing reached with
  | nil => exact found
  | cons name upper ih =>
      obtain ⟨above, foundAbove, below⟩ := reach_cons_ok.mp found
      have aboveShallow : above.level ≠ .object := by
        intro deep
        have depth := child_level below
        rw [deep] at depth
        cases reached <;> simp [level, Level.depth] at depth
      exact reach_cons_ok.mpr
        ⟨above, ih foundAbove aboveShallow, child_any_kind below shallow other⟩

end Resource

namespace Definition

/-- The kind of the described object. Other resources have none, and `file` stands in. -/
def kind : Definition → EntityKind
  | .object definition => definition.properties.kind
  | _ => .file

/-- The name that wraps a definition, its own or else the next one of the source, and
the source that is left. -/
def ownOrNext (definition : Definition) (source : NameSource) : String × NameSource :=
  match definition.name? with
  | some name => (name, source)
  | none => source.next

/-- The names that go into a number of wrappings, the deepest one first. Only the
definition itself can have a name of its own, its wrappers get generated ones. -/
def givenNames (definition : Definition) (source : NameSource) : Nat → List String
  | 0 => []
  | wrappers + 1 =>
      (definition.ownOrNext source).1 :: (definition.ownOrNext source).2.take wrappers

def generatedNames (definition : Definition) : Nat → Nat
  | 0 => 0
  | wrappers + 1 => if definition.name?.isSome then wrappers else wrappers + 1

def boundToFirst (definition : Definition) : List String → Definition
  | [] => definition
  | name :: _ => definition.boundTo name

theorem skip_generated (definition : Definition) (source : NameSource) (wrappers : Nat) :
    source.skip (definition.generatedNames (wrappers + 1)) =
      (definition.ownOrNext source).2.skip wrappers := by
  cases named : definition.name? with
  | none => simp [generatedNames, ownOrNext, named, NameSource.skip]
  | some name => simp [generatedNames, ownOrNext, named]

theorem given_names_unnamed {definition : Definition} (unnamed : definition.name? = none)
    (source : NameSource) (count : Nat) :
    definition.givenNames source count = source.take count := by
  cases count with
  | zero => rfl
  | succ count => simp [givenNames, ownOrNext, unnamed, NameSource.take]

/-- Wrapping goes one level up and can be undone: whatever name the wrapper is bound
to, its only child is the definition under the name it was wrapped with. -/
theorem wrap_then_lower {definition : Definition} (nested : definition.level ≠ .service)
    (name : String) :
    ∃ wrapper, definition.wrap name = .ok wrapper ∧
      wrapper.level.depth + 1 = definition.level.depth ∧ wrapper.level ≠ .object ∧
      wrapper.name? = none ∧
      ∀ names resource child, resource.level = wrapper.level →
        resource.child name definition.kind = .ok child →
        (wrapper.boundToFirst names).lower resource = .ok (child, definition.boundTo name) := by
  cases definition with
  | service inner => exact absurd rfl nested
  | container inner =>
      refine ⟨_, rfl, rfl, by simp [level], rfl, ?_⟩
      intro names resource child sameLevel below
      cases resource with
      | service handle =>
          cases below
          cases names <;> rfl
      | container handle => cases sameLevel
      | object handle => cases sameLevel
  | object inner =>
      refine ⟨_, rfl, rfl, by simp [level], rfl, ?_⟩
      intro names resource child sameLevel below
      cases resource with
      | service handle => cases sameLevel
      | container handle =>
          cases below
          cases names <;> rfl
      | object handle => cases sameLevel

theorem lift_yields {definition wrapper : Definition} (nested : definition.level ≠ .service)
    (session : Session)
    (wrapped : definition.wrap (definition.ownOrNext session.context.names).1 = .ok wrapper) :
    definition.lift.Yields session wrapper
      { session.context with names := (definition.ownOrNext session.context.names).2 }
      session.storage := by
  obtain ⟨parent, above⟩ : ∃ parent, definition.level.parent? = some parent := by
    cases definition with
    | service inner => exact absurd rfl nested
    | container inner => exact ⟨_, rfl⟩
    | object inner => exact ⟨_, rfl⟩
  unfold lift
  rw [above]
  unfold ownOrNext at wrapped ⊢
  cases named : definition.name? with
  | none =>
      rw [named] at wrapped
      apply Work.bind_yields (Work.generate_name_yields session)
      intro log
      apply Work.bind_yields (Work.write_yields _ _ _)
      intro written
      rw [wrapped]
      exact Work.pure_yields _ _
  | some name =>
      rw [named] at wrapped
      apply Work.bind_yields (Work.pure_yields name session)
      intro log
      apply Work.bind_yields (Work.write_yields _ _ _)
      intro written
      rw [wrapped]
      exact Work.pure_yields _ _

theorem lower_times_succ (count : Nat) (definition : Definition) (resource : Resource) :
    definition.lowerTimes (count + 1) resource =
      (definition.lowerTimes count resource).bind fun below => below.2.lower below.1 := by
  induction count generalizing definition resource with
  | zero =>
      cases lowered : definition.lower resource <;>
        simp [lowerTimes, lowered, bind, Except.bind]
  | succ count ih =>
      rw [lowerTimes]
      cases lowered : definition.lower resource with
      | error error => simp [lowerTimes, lowered, bind, Except.bind]
      | ok below =>
          simp only [lowerTimes, lowered, bind, Except.bind] at ih ⊢
          exact ih below.2 below.1

theorem lift_then_lower (steps : Nat) (definition : Definition) (base : Resource)
    (session : Session) (distance : definition.level.depth = base.level.depth + steps) :
    ∃ lifted target,
      (liftTimes steps definition).Yields session lifted
        { session.context with
          names := session.context.names.skip (definition.generatedNames steps) }
        session.storage ∧
      lifted.level = base.level ∧
      target.level = definition.level ∧
      base.reach definition.kind (definition.givenNames session.context.names steps) =
        .ok target ∧
      lowerTimes steps lifted base =
        .ok (target,
          definition.boundToFirst (definition.givenNames session.context.names steps)) := by
  -- The induction is on the number of wrappings. The wrapper of the definition is itself lifted
  -- the rest of the way; going down ends one level above, where the wrapper under its name has
  -- the definition as its only child.
  induction steps generalizing definition session with
  | zero =>
      have sameLevel : base.level = definition.level := Level.depth_injective distance.symm
      exact ⟨definition, base, Work.pure_yields definition session, sameLevel.symm, sameLevel,
        rfl, rfl⟩
  | succ steps ih =>
      have nested : definition.level ≠ .service := by
        intro top
        rw [top] at distance
        simp [Level.depth] at distance
      let given := definition.ownOrNext session.context.names
      obtain ⟨wrapper, wrapped, higher, shallow, unnamed, opens⟩ :=
        wrap_then_lower nested given.1
      have lift := lift_yields nested session wrapped
      obtain ⟨log, ranLift⟩ := lift
      obtain ⟨lifted, above, liftRest, sameLevel, aboveLevel, reached, lowered⟩ :=
        ih wrapper ⟨{ session.context with names := given.2 }, session.storage, log⟩ (by omega)
      simp only [given_names_unnamed unnamed] at reached lowered
      have reachedAny := Resource.reach_any_kind _ reached (by rw [aboveLevel]; exact shallow)
        definition.kind
      obtain ⟨target, below⟩ :
          ∃ target, above.child given.1 definition.kind = .ok target := by
        cases above with
        | service handle => exact ⟨_, rfl⟩
        | container handle => exact ⟨_, rfl⟩
        | object handle => exact absurd aboveLevel.symm shallow
      have targetLevel : target.level = definition.level := by
        apply Level.depth_injective
        rw [Resource.child_level below, aboveLevel, higher]
      refine ⟨lifted, target, ?_, sameLevel, targetLevel, ?_, ?_⟩
      · obtain ⟨finished, ranRest⟩ := liftRest
        refine ⟨finished, ?_⟩
        rw [skip_generated]
        have counted : wrapper.generatedNames steps = steps := by
          cases steps <;> simp [generatedNames, unnamed]
        rw [counted] at ranRest
        exact Work.bind_ok_iff.mpr ⟨wrapper, _, ranLift, ranRest⟩
      · exact Resource.reach_cons_ok.mpr ⟨above, reachedAny, below⟩
      · rw [lower_times_succ, lowered]
        exact opens _ above target aboveLevel below

def lifted (definition : Definition) (source : NameSource) : ServiceDefinition :=
  let own := definition.ownOrNext source
  match definition with
  | .service inner => inner
  | .container inner => { containers := Table.singleton own.1 (inner.boundTo own.1) }
  | .object inner =>
      let upper := own.2.next.1
      { containers := Table.singleton upper
          { name := some upper
            objects := .flat (Table.singleton own.1 (inner.boundTo own.1)) } }

def resourceBelow (definition : Definition) (service : ServiceHandle) (source : NameSource) :
    Resource :=
  let own := definition.ownOrNext source
  match definition with
  | .service _ => .service service
  | .container _ => .container (service.container own.1)
  | .object inner =>
      .object ((service.container own.2.next.1).object own.1 inner.properties.kind)

theorem resource_below_service (definition : Definition) (service : ServiceHandle)
    (source : NameSource) :
    (definition.resourceBelow service source).serviceHandle = service := by
  cases definition <;> rfl

theorem resource_below_level (definition : Definition) (service : ServiceHandle)
    (source : NameSource) :
    (definition.resourceBelow service source).level = definition.level := by
  cases definition <;> rfl

theorem lift_below_service (definition : Definition) (session : Session) :
    ∃ names, (liftTimes definition.level.depth definition).Yields session
      (.service (definition.lifted session.context.names))
      { session.context with names := names } session.storage := by
  cases definition with
  | service inner => exact ⟨session.context.names, Work.pure_yields _ session⟩
  | container inner =>
      have nested : (Definition.container inner).level ≠ .service := by simp [level]
      have lift := lift_yields nested session rfl
      exact ⟨_, Work.bind_yields lift fun _ => Work.pure_yields _ _⟩
  | object inner =>
      let own := (Definition.object inner).ownOrNext session.context.names
      have nested : (Definition.object inner).level ≠ .service := by simp [level]
      have lift := lift_yields nested session rfl
      refine ⟨own.2.next.2, Work.bind_yields lift fun _ => ?_⟩
      refine Work.bind_yields (lift_yields (by simp [level]) _ rfl) fun _ => ?_
      exact Work.pure_yields _ _

theorem lower_lifted (definition : Definition) (service : ServiceHandle) (source : NameSource) :
    ∃ bound, lowerTimes definition.level.depth (.service (definition.lifted source))
      (.service service) = .ok (definition.resourceBelow service source, bound) := by
  cases definition with
  | service inner => exact ⟨_, rfl⟩
  | container inner => exact ⟨_, rfl⟩
  | object inner => exact ⟨_, rfl⟩

def inContainer? (definition : Definition) (source : NameSource) : Option ContainerDefinition :=
  match definition with
  | .service _ => none
  | .container inner => some inner
  | .object inner =>
      let own := definition.ownOrNext source
      some { objects := .flat (Table.singleton own.1 (inner.boundTo own.1)) }

theorem lift_into_container {definition : Definition} {wanted : ContainerDefinition}
    {session : Session} (isWrapper : definition.inContainer? session.context.names = some wanted)
    (container : ContainerHandle) :
    Level.container ≤ definition.level ∧
      ∃ names target bound,
        (liftTimes (definition.level.depth - Level.container.depth) definition).Yields session
          (.container wanted) { session.context with names := names } session.storage ∧
        lowerTimes (definition.level.depth - Level.container.depth) (.container wanted)
          (.container container) = .ok (target, bound) := by
  cases definition with
  | service inner => cases isWrapper
  | container inner =>
      cases isWrapper
      exact ⟨Nat.le_refl _, session.context.names, _, _, Work.pure_yields _ session, rfl⟩
  | object inner =>
      cases isWrapper
      have nested : (Definition.object inner).level ≠ .service := by simp [level]
      have lift := lift_yields nested session rfl
      exact ⟨Nat.le_succ 1, _, _, _, Work.bind_yields lift fun _ => Work.pure_yields _ _, rfl⟩

end Definition

namespace Creation

open Work

/-- The error reports a create call of a back-end that failed and left this storage. -/
inductive CallFailed (error : ScenarioError) (after : Session) : Prop
  | container (handle : ContainerHandle) (properties : ContainerProperties) (before : Storage)
      (cause : BackendError)
      (failed : handle.create properties before = .error cause after.storage)
      (reported : error = .backend .createContainer handle.canonicalName cause)
  | object (handle : ObjectHandle) (body : Body) (properties : ObjectProperties)
      (before : Storage) (cause : BackendError)
      (failed : handle.create body properties before = .error cause after.storage)
      (reported : error = .backend .createObject handle.canonicalName cause)

theorem container_fails_only (handle : ContainerHandle) (definition : ContainerDefinition) :
    FailsOnly CallFailed (Creation.container (.container handle) (.container definition)) := by
  change FailsOnly CallFailed (if !definition.isWanted then _ else _)
  split
  · refine bind_fails_only (note_fails_only _ _) ?_
    intro _
    exact pure_fails_only _
  · refine bind_fails_only (note_fails_only _ _) ?_
    intro _
    refine bind_fails_only ?_ ?_
    · intro before error after failed
      obtain ⟨cause, refused, reported⟩ := access_error failed
      exact .container handle definition.properties before.storage cause refused reported
    · intro isNew
      dsimp only
      split
      · exact bind_fails_only (update_context_fails_only _) fun _ => pure_fails_only _
      · exact bind_fails_only (note_fails_only _ _) fun _ => pure_fails_only _

theorem object_fails_only (handle : ObjectHandle) (definition : ObjectDefinition) :
    FailsOnly CallFailed (Creation.object (.object handle) (.object definition)) := by
  change FailsOnly CallFailed (if !definition.isWanted then _ else _)
  split
  · refine bind_fails_only (note_fails_only _ _) ?_
    intro _
    exact pure_fails_only _
  · refine bind_fails_only (note_fails_only _ _) ?_
    intro _
    refine bind_fails_only ?_ ?_
    · intro before error after failed
      obtain ⟨cause, refused, reported⟩ := access_error failed
      exact .object handle (definition.body.getD (.zeros 0)) definition.properties before.storage
        cause refused reported
    · intro _
      refine bind_fails_only (update_context_fails_only _) ?_
      intro _
      exact pure_fails_only _

/-- A walk over a definition at the level of its resource fails only at create calls. -/
theorem traverse_fails_only {definition : Definition} {resource : Resource}
    (sameLevel : definition.level = resource.level) :
    FailsOnly CallFailed (definition.traverse callbacks resource) := by
  refine Work.traverse_fails_only (fun resource definition sameLevel => ?_) sameLevel
  cases definition <;> cases resource <;> try cases sameLevel
  · exact pure_fails_only _
  · exact container_fails_only _ _
  · exact object_fails_only _ _

theorem create_deeper {base : Resource} {definition : Definition}
    (deeper : ¬ base.level ≤ definition.level) (session : Session) :
    create base definition session =
      .error (.resourceDeeperThanDefinition base.level definition.level) session := by
  have below : definition.level < base.level := Nat.not_le.mp deeper
  unfold create
  rw [if_pos below]
  rfl

end Creation

theorem create_after_lift {base target : Resource} {definition lifted bound : Definition}
    {session between : Session} (shallow : base.level ≤ definition.level)
    (ranLift : Definition.liftTimes (definition.level.depth - base.level.depth) definition
      session = .ok lifted between)
    (lowered : Definition.lowerTimes (definition.level.depth - base.level.depth) lifted base =
      .ok (target, bound)) :
    ∃ opening closing, create base definition session =
      (do
        Work.note .debug opening
        lifted.traverse Creation.callbacks base
        Work.note .info closing
        return target : Work Resource) between := by
  have notDeeper : ¬ definition.level < base.level := Nat.not_lt.mpr shallow
  unfold create
  rw [if_neg notDeeper]
  simp only [bind, EStateM.bind, ranLift, lowered]
  exact ⟨_, _, rfl⟩

end StorageScenario
