import StorageScenario.Proofs.CreationSteps

/-!
The create calls of a walk. A definition next to its resource plans a list of calls: a
container before its objects, children in the order of their keys, and nothing below
what is not wanted. A walk makes these calls one after the other and tracks what is new,
and the first call that fails ends it. This holds of every back-end; on an emulated
account the call that fails changes nothing either.
-/

namespace StorageScenario

def Context.trackAll (context : Context) (resources : List Resource) : Context :=
  { context with created := context.created ++ resources }

namespace Context

theorem track_all_nil (context : Context) : context.trackAll [] = context := by
  simp [trackAll]

theorem track_all_append (context : Context) (first second : List Resource) :
    context.trackAll (first ++ second) = (context.trackAll first).trackAll second := by
  simp [trackAll]

end Context

namespace Creation

open Work

inductive Call where
  | container (handle : ContainerHandle) (properties : ContainerProperties)
  | object (handle : ObjectHandle) (body : Body) (properties : ObjectProperties)

namespace Call

def resource : Call → Resource
  | .container handle _ => .container handle
  | .object handle _ _ => .object handle

def operation : Call → Operation
  | .container _ _ => .createContainer
  | .object _ _ _ => .createObject

/-- Tells whether there is something new. A container that is there already is not new; an
object that is made always is. -/
def run : Call → Access Bool
  | .container handle properties => handle.create properties
  | .object handle body properties => do
      handle.create body properties
      return true

def failure (call : Call) (cause : BackendError) : ScenarioError :=
  .backend call.operation call.resource.canonicalName cause

end Call

def makeAll : List Call → Access (List Resource)
  | [] => pure []
  | call :: rest => do
      let isNew ← call.run
      let made ← makeAll rest
      return if isNew then call.resource :: made else made

def objectPlan (handle : ObjectHandle) (definition : ObjectDefinition) : List Call :=
  if definition.isWanted then
    [.object handle (definition.body.getD (.zeros 0)) definition.properties]
  else []

def containerPlan (handle : ContainerHandle) (definition : ContainerDefinition) : List Call :=
  if definition.isWanted then
    .container handle definition.properties ::
      definition.objects.flatten.entries.flatMap fun entry =>
        objectPlan (handle.object entry.1 entry.2.properties.kind) entry.2
  else []

/-- The calls for a definition and all below it, parents before children and children in
the order of their keys. -/
def plan (base : Resource) (definition : Definition) : List Call :=
  match base, definition with
  | .service handle, .service inner =>
      inner.containers.entries.flatMap fun entry =>
        containerPlan (handle.container entry.1) entry.2
  | .container handle, .container inner => containerPlan handle inner
  | .object handle, .object inner => objectPlan handle inner
  | _, _ => []

theorem make_all_cons {call : Call} {rest : List Call} {isNew : Bool} {made : List Resource}
    {before between after : Storage} (ran : call.run before = .ok isNew between)
    (ranRest : makeAll rest between = .ok made after) :
    makeAll (call :: rest) before =
      .ok (if isNew then call.resource :: made else made) after := by
  unfold makeAll
  exact bind_ok_iff.mpr ⟨isNew, between, ran, bind_ok_iff.mpr ⟨made, after, ranRest, rfl⟩⟩

theorem make_all_append {first second : List Call} {made more : List Resource}
    {before between after : Storage} (ran : makeAll first before = .ok made between)
    (ranSecond : makeAll second between = .ok more after) :
    makeAll (first ++ second) before = .ok (made ++ more) after := by
  induction first generalizing before made with
  | nil =>
      cases ran
      exact ranSecond
  | cons call rest ih =>
      obtain ⟨isNew, next, ranCall, ranRest⟩ := bind_ok_iff.mp ran
      obtain ⟨madeRest, last, ranMade, same⟩ := bind_ok_iff.mp ranRest
      cases same
      rw [List.cons_append, make_all_cons ranCall (ih ranMade)]
      cases isNew <;> rfl

section Performing

variable {α β : Type}

/-- What becomes of a list of calls: all of them are made, or one of them fails and those
after it are not made. What was new up to there is tracked. -/
inductive Performed (calls : List Call) (before : Session) (value : α) :
    EStateM.Result ScenarioError Session α → Prop
  | all (made : List Resource) (after : Session)
      (ran : makeAll calls before.storage = .ok made after.storage)
      (tracked : after.context = before.context.trackAll made) :
      Performed calls before value (.ok value after)
  | upTo (done : List Call) (call : Call) (later : List Call)
      (split : calls = done ++ call :: later) (made : List Resource) (between : Storage)
      (cause : BackendError) (after : Session)
      (ran : makeAll done before.storage = .ok made between)
      (failed : call.run between = .error cause after.storage)
      (tracked : after.context = before.context.trackAll made) :
      Performed calls before value (.error (call.failure cause) after)

/-- The action makes these calls and nothing else that can be read back. -/
def Performs (action : Work α) (calls : List Call) (value : α) : Prop :=
  ∀ before, Performed calls before value (action before)

theorem performs_nothing {action : Work α} {value : α}
    (idle : ∀ before, action.Yields before value before.context before.storage) :
    Performs action [] value := by
  intro before
  obtain ⟨log, ran⟩ := idle before
  rw [ran]
  exact .all [] _ rfl (Context.track_all_nil _).symm

theorem performs_bind {action : Work α} {next : α → Work β} {first second : List Call}
    {middle : α} {value : β} (begins : Performs action first middle)
    (goesOn : Performs (next middle) second value) :
    Performs (action >>= next) (first ++ second) value := by
  intro before
  have begun := begins before
  cases result : action before with
  | error error between =>
      rw [result] at begun
      rw [bind_error_iff.mpr (Or.inl result)]
      cases begun with
      | upTo done call later split made storage cause after ran failed tracked =>
          refine .upTo done call (later ++ second) ?_ made storage cause _ ran failed tracked
          rw [split, List.append_assoc, List.cons_append]
  | ok found between =>
      rw [result] at begun
      cases begun with
      | all made after ran tracked =>
          have gone := goesOn between
          cases last : next middle between with
          | ok ending after =>
              rw [last] at gone
              rw [bind_ok_iff.mpr ⟨middle, between, result, last⟩]
              cases gone with
              | all more _ ranMore trackedMore =>
                  refine .all (made ++ more) after (make_all_append ran ranMore) ?_
                  rw [trackedMore, tracked, Context.track_all_append]
          | error error after =>
              rw [last] at gone
              rw [bind_error_iff.mpr (Or.inr ⟨middle, between, result, last⟩)]
              cases gone with
              | upTo done call later split more storage cause _ ranMore failed trackedMore =>
                  refine .upTo (first ++ done) call later ?_ (made ++ more) storage cause after
                    (make_all_append ran ranMore) failed ?_
                  · rw [split, List.append_assoc]
                  · rw [trackedMore, tracked, Context.track_all_append]

theorem performs_call (call : Call) {action : Work α} {value : α}
    (succeeds : ∀ before isNew storage, call.run before.storage = .ok isNew storage →
      action.Yields before value
        (before.context.trackAll (if isNew then [call.resource] else [])) storage)
    (fails : ∀ before cause storage, call.run before.storage = .error cause storage →
      ∃ log, action before = .error (call.failure cause) ⟨before.context, storage, log⟩) :
    Performs action [call] value := by
  intro before
  cases ran : call.run before.storage with
  | ok isNew storage =>
      obtain ⟨log, ended⟩ := succeeds before isNew storage ran
      rw [ended]
      have made : makeAll [call] before.storage =
          .ok (if isNew then [call.resource] else []) storage :=
        make_all_cons ran rfl
      exact .all _ _ made rfl
  | error cause storage =>
      obtain ⟨log, ended⟩ := fails before cause storage ran
      rw [ended]
      exact .upTo [] call [] rfl [] before.storage cause _ rfl ran (Context.track_all_nil _).symm

theorem performs_each {step : α → Work Unit} {calls : α → List Call} (entries : List α)
    (each : ∀ entry ∈ entries, Performs (step entry) (calls entry) ()) :
    Performs (entries.forM step) (entries.flatMap calls) () := by
  induction entries with
  | nil => exact performs_nothing fun before => pure_yields () before
  | cons entry rest ih =>
      rw [List.flatMap_cons]
      refine performs_bind (each entry (by simp)) ?_
      exact ih fun other member => each other (by simp [member])

section Visits

variable {callbacks : Callbacks Session} {resource : Resource} {definition : Definition}
  {children : Work Unit} {first second : List Call}

theorem performs_visit (sameLevel : resource.level = definition.level)
    (called : Performs (callbacks.invoke resource definition) first .descend)
    (below : Performs children second ()) :
    Performs (callbacks.visit resource definition children) (first ++ second) () := by
  rw [visit_at_level children sameLevel]
  exact performs_bind called below

theorem performs_skip (sameLevel : resource.level = definition.level)
    (called : Performs (callbacks.invoke resource definition) first .skipChildren) :
    Performs (callbacks.visit resource definition children) first () := by
  rw [visit_at_level children sameLevel, ← List.append_nil first]
  exact performs_bind called (performs_nothing fun before => pure_yields () before)

end Visits

end Performing

section Walking

variable {handle : ObjectHandle} {container : ContainerHandle} {service : ServiceHandle}

theorem object_performs {definition : ObjectDefinition} (wanted : definition.isWanted) :
    Performs (Creation.object (.object handle) (.object definition))
      [.object handle (definition.body.getD (.zeros 0)) definition.properties] .descend := by
  apply performs_call
  · intro before isNew storage ran
    obtain ⟨_, between, made, same⟩ := bind_ok_iff.mp ran
    cases same
    exact object_yields handle definition wanted made
  · intro before cause storage ran
    rcases bind_error_iff.mp ran with failed | ⟨_, _, _, failed⟩
    · exact object_fails wanted failed
    · cases failed

theorem container_performs {definition : ContainerDefinition} (wanted : definition.isWanted) :
    Performs (Creation.container (.container container) (.container definition))
      [.container container definition.properties] .descend := by
  apply performs_call
  · intro before isNew storage ran
    have yields := container_yields container definition wanted ran
    cases isNew with
    | false => rwa [← Context.track_all_nil before.context] at yields
    | true => exact yields
  · intro before cause storage ran
    exact container_fails wanted ran

theorem visit_object_performs (handle : ObjectHandle) (definition : ObjectDefinition) :
    Performs (callbacks.visitObject (.object handle) definition) (objectPlan handle definition)
      () := by
  unfold objectPlan
  cases wanted : definition.isWanted with
  | false =>
      rw [if_neg (by simp)]
      exact performs_skip rfl (performs_nothing fun before => object_skips handle definition wanted)
  | true =>
      rw [if_pos rfl]
      have called : Performs (callbacks.invoke (.object handle) (.object definition)) _ _ :=
        object_performs wanted
      exact performs_visit rfl called (performs_nothing fun before => pure_yields () before)

theorem visit_container_performs (container : ContainerHandle)
    (definition : ContainerDefinition) :
    Performs (callbacks.visitContainer (.container container) definition)
      (containerPlan container definition) () := by
  unfold containerPlan
  cases wanted : definition.isWanted with
  | false =>
      rw [if_neg (by simp)]
      exact performs_skip rfl
        (performs_nothing fun before => container_skips container definition wanted)
  | true =>
      rw [if_pos rfl]
      have called : Performs (callbacks.invoke (.container container) (.container definition))
          _ _ := container_performs wanted
      refine performs_visit rfl called ?_
      apply performs_each
      intro entry _
      exact visit_object_performs _ (entry.2.boundTo entry.1)

theorem visit_service_performs (service : ServiceHandle) (definition : ServiceDefinition) :
    Performs (callbacks.visitService (.service service) definition)
      (plan (.service service) (.service definition)) () := by
  change Performs (definition.containers.entries.forM _) _ _
  apply performs_each
  intro entry _
  exact visit_container_performs _ (entry.2.boundTo entry.1)

theorem traverse_performs {base : Resource} {definition : Definition}
    (sameLevel : definition.level = base.level) :
    Performs (definition.traverse callbacks base) (plan base definition) () := by
  cases definition <;> cases base <;> try cases sameLevel
  · exact visit_service_performs _ _
  · exact visit_container_performs _ _
  · exact visit_object_performs _ _

theorem create_performs {base target : Resource} {definition lifted bound : Definition}
    {session between : Session} (shallow : base.level ≤ definition.level)
    (ranLift : Definition.liftTimes (definition.level.depth - base.level.depth) definition
      session = .ok lifted between)
    (sameLevel : lifted.level = base.level)
    (lowered : Definition.lowerTimes (definition.level.depth - base.level.depth) lifted base =
      .ok (target, bound)) :
    Performed (plan base lifted) between target (create base definition session) := by
  obtain ⟨opening, closing, same⟩ := create_after_lift shallow ranLift lowered
  have closed : Performs (do
      note .info closing
      return target : Work Resource) [] target :=
    performs_nothing fun before => bind_yields (note_yields _ _ before) fun _ => pure_yields _ _
  have whole : Performs (do
      note .debug opening
      lifted.traverse callbacks base
      note .info closing
      return target : Work Resource) ([] ++ (plan base lifted ++ [])) target :=
    performs_bind (performs_nothing (note_yields _ _))
      (performs_bind (traverse_performs sameLevel) closed)
  rw [List.nil_append, List.append_nil] at whole
  rw [same]
  exact whole between

end Walking

section Memory

variable {account : Account} {location : Location}

theorem object_plan_service {handle : ObjectHandle} {definition : ObjectDefinition} {call : Call}
    (planned : call ∈ objectPlan handle definition) :
    call.resource.serviceHandle = handle.container.service := by
  unfold objectPlan at planned
  split at planned
  · rw [List.mem_singleton.mp planned]
    rfl
  · cases planned

theorem container_plan_service {handle : ContainerHandle} {definition : ContainerDefinition}
    {call : Call} (planned : call ∈ containerPlan handle definition) :
    call.resource.serviceHandle = handle.service := by
  unfold containerPlan at planned
  split at planned
  · rcases List.mem_cons.mp planned with same | below
    · rw [same]
      rfl
    · obtain ⟨entry, _, inside⟩ := List.mem_flatMap.mp below
      exact object_plan_service inside
  · cases planned

/-- All calls of a plan go to the service of its base. -/
theorem plan_service {base : Resource} {definition : Definition} {call : Call}
    (planned : call ∈ plan base definition) :
    call.resource.serviceHandle = base.serviceHandle := by
  cases base <;> cases definition
  case service.service handle inner =>
    obtain ⟨entry, _, inside⟩ := List.mem_flatMap.mp planned
    exact container_plan_service inside
  case container.container handle inner => exact container_plan_service planned
  case object.object handle inner => exact object_plan_service planned
  all_goals cases planned

theorem call_fails_unchanged {call : Call} {cause : BackendError} {before after : Storage}
    (onMemory : call.resource.serviceHandle = .memory account location)
    (failed : call.run before = .error cause after) : after = before := by
  cases call with
  | container handle properties =>
      obtain ⟨_, name⟩ := handle
      cases onMemory
      have ran := ContainerHandle.create_on_memory account location name before properties
      change ContainerHandle.create ⟨.memory account location, name⟩ properties
        before = _ at failed
      rw [ran] at failed
      split at failed <;> cases failed
  | object handle body properties =>
      rcases bind_error_iff.mp failed with refused | ⟨_, _, _, refused⟩
      · rcases ObjectHandle.create_on_memory_cases onMemory body properties before with
          ⟨_, ran⟩ | ⟨_, _, _, ran⟩
        · cases ran.symm.trans refused
          rfl
        · cases ran.symm.trans refused
      · cases refused

end Memory

/-- A creation on an emulated account makes the calls of its plan, in order, up to the
first that fails. What it tracks is what was new up to there: the containers that were not
there before and the objects. A failure is that of the call and changes nothing, and of
the calls behind it none is made. Nothing else in the context is changed, but that names
have been taken. -/
theorem create_stops_at_failure {account : Account} {location : Location} {base : Resource}
    (definition : Definition) (session : Session)
    (onMemory : base.serviceHandle = .memory account location)
    (shallow : base.level ≤ definition.level) :
    let steps := definition.level.depth - base.level.depth
    ∃ lifted names,
      (Definition.liftTimes steps definition).Yields session lifted
        { session.context with names := names } session.storage ∧
      lifted.level = base.level ∧
      ∃ done rest made after,
        plan base lifted = done ++ rest ∧
        makeAll done session.storage = .ok made after.storage ∧
        after.context =
          { session.context with names := names, created := session.context.created ++ made } ∧
        ((rest = [] ∧ ∃ target, create base definition session = .ok target after) ∨
          ∃ call later cause, rest = call :: later ∧
            call.run after.storage = .error cause after.storage ∧
            create base definition session = .error (call.failure cause) after) := by
  intro steps
  have distance : definition.level.depth = base.level.depth + steps :=
    (Nat.add_sub_cancel' shallow).symm
  obtain ⟨lifted, target, ⟨log, ranLift⟩, sameLevel, _, _, lowered⟩ :=
    Definition.lift_then_lower steps definition base session distance
  refine ⟨lifted, _, ⟨log, ranLift⟩, sameLevel, ?_⟩
  have performed := create_performs shallow ranLift sameLevel lowered
  cases result : create base definition session with
  | ok value after =>
      rw [result] at performed
      cases performed with
      | all made _ ran tracked =>
          exact ⟨_, [], made, after, (List.append_nil _).symm, ran, tracked,
            Or.inl ⟨rfl, target, rfl⟩⟩
  | error error after =>
      rw [result] at performed
      cases performed with
      | upTo done call later split made between cause _ ran failed tracked =>
          have planned : call ∈ plan base lifted := by simp [split]
          have unchanged := call_fails_unchanged ((plan_service planned).trans onMemory) failed
          rw [← unchanged] at ran failed
          exact ⟨done, call :: later, made, after, split, ran, tracked,
            Or.inr ⟨call, later, cause, rfl, failed, rfl⟩⟩

def failureNames? : EStateM.Result ScenarioError Session Resource →
    Option (ScenarioError × List String)
  | .ok _ _ => none
  | .error error after => some (error, after.context.created.map Resource.canonicalName)

/-- The container `here` is there before and holds one more object, `new` is new, and the
second of its three objects cannot be read. So `new/c` and `zzz` are never made. -/
theorem create_stops_at_failure_unreadable_body :
    let account : Account := ⟨0, "account", .hierarchicalNamespace⟩
    let base : Resource := .service (.memory account .blobFs)
    let here : ContainerDefinition :=
      { objects := .flat (Table.ofList [("gone", { shouldExist := some false }), ("x", {})]) }
    let torn : Body := .declared 1 [1] (some "torn")
    let new : ContainerDefinition :=
      { objects := .flat (Table.ofList [("a", {}), ("b", { body := some torn }), ("c", {})]) }
    let definition : Definition :=
      .service ⟨Table.ofList [("here", here), ("new", new), ("zzz", {})]⟩
    let session : Session :=
      ⟨⟨"scenario", {}, .counting "n", [], []⟩,
        (Storage.fresh (.ofDirectories ⟨0⟩ [])).setStore account .blobFs
          (Table.singleton "here" (StoredContainer.created {})), []⟩
    base.serviceHandle = .memory account .blobFs ∧ base.level ≤ definition.level ∧
      ∃ done call later made cause after,
        plan base definition = done ++ call :: later ∧
        makeAll done session.storage = .ok made after.storage ∧
        call.run after.storage = .error cause after.storage ∧
        create base definition session = .error (call.failure cause) after ∧
        call.failure cause = .backend .createObject "account/blobfs/new/b"
          (.io "account/blobfs/new/b" (.unreadableBody "torn")) ∧
        made.map Resource.canonicalName =
          ["account/blobfs/here/x", "account/blobfs/new", "account/blobfs/new/a"] := by
  intro account base here torn new definition session
  have shallow : base.level ≤ definition.level := by decide
  have onMemory : base.serviceHandle = .memory account .blobFs := rfl
  refine ⟨onMemory, shallow, ?_⟩
  obtain ⟨lifted, names, ⟨log, ranLift⟩, _, done, rest, made, after, split, ran,
    tracked, ended⟩ :=
    create_stops_at_failure definition session onMemory shallow
  have unlifted : definition = lifted := (EStateM.Result.ok.inj ranLift).1
  rw [← unlifted] at split
  have stopped : failureNames? (create base definition session) =
      some (.backend .createObject "account/blobfs/new/b"
          (.io "account/blobfs/new/b" (.unreadableBody "torn")),
        ["account/blobfs/here/x", "account/blobfs/new", "account/blobfs/new/a"]) := by
    decide +kernel
  rcases ended with ⟨_, target, ranWell⟩ | ⟨call, later, cause, isRest, failed, ranIll⟩
  · rw [ranWell] at stopped
    cases stopped
  · rw [ranIll] at stopped
    obtain ⟨sameError, sameNames⟩ := Prod.mk.inj (Option.some.inj stopped)
    rw [tracked] at sameNames
    rw [isRest] at split
    exact ⟨done, call, later, made, cause, after, split, ran, failed, ranIll, sameError,
      sameNames⟩

end Creation

end StorageScenario
