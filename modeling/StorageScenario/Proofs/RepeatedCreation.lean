import StorageScenario.Proofs.AtomicCalls
import StorageScenario.Proofs.CreationBases

/-!
Creations made again. A second run makes the calls of the first one from where that one has
ended. No container is new to it, and on its way every place in a container holds what the
first run had there by then or what the first run left there in the end. Once all calls are
made these are the same, so the second run fails where the first one failed, or not at all,
and it leaves the service as it found it.
-/

namespace StorageScenario

open Work

namespace StoredContainer

theorem put_object_objects (container : StoredContainer) (path other : String)
    (object : StoredObject) :
    (container.putObject path object).objects.get? other =
      if path ≠ "" ∧ path = other then some object else container.objects.get? other := by
  unfold putObject
  by_cases atRoot : path = ""
  · simp [atRoot]
  · simp [atRoot, eq_comm]

theorem put_object_root (container : StoredContainer) (path : String) (object : StoredObject) :
    (container.putObject path object).rootProperties =
      if path = "" then { object.properties with kind := .folder }
      else container.rootProperties := by
  unfold putObject
  split <;> rfl

theorem put_object_properties (container : StoredContainer) (path : String)
    (object : StoredObject) : (container.putObject path object).properties =
      container.properties := by
  unfold putObject
  split <;> rfl

/-- A container on the way of a second run. At every place it holds what the first run left
there, or what the first run had there at the same point of its own way. -/
structure Retraced (first : Option StoredContainer) (last now : StoredContainer) : Prop where
  properties : now.properties = last.properties
  root : now.rootProperties = last.rootProperties ∨
    first.map (·.rootProperties) = some now.rootProperties
  objects : ∀ path, now.objects.get? path = last.objects.get? path ∨
    first.map (·.objects.get? path) = some (now.objects.get? path)

variable {stored last now : StoredContainer}

/-- What the first run had not opened yet, the second one has as the first one left it. -/
theorem retraced_opened (retraced : Retraced none last now) (opened : Option StoredContainer) :
    Retraced opened last now where
  properties := retraced.properties
  root := Or.inl (retraced.root.resolve_right (by simp))
  objects path := Or.inl ((retraced.objects path).resolve_right (by simp))

theorem retraced_put (retraced : Retraced (some stored) last now) (path : String)
    (object : StoredObject) :
    Retraced (some (stored.putObject path object)) last (now.putObject path object) where
  properties := by
    rw [put_object_properties]
    exact retraced.properties
  root := by
    have root := retraced.root
    rw [Option.map_some, put_object_root, put_object_root]
    split
    · exact Or.inr rfl
    · exact root
  objects other := by
    have objects := retraced.objects other
    rw [Option.map_some, put_object_objects, put_object_objects]
    split
    · exact Or.inr rfl
    · exact objects

theorem retraced_end (retraced : Retraced (some last) last now) : now = last := by
  have properties := retraced.properties
  have root : now.rootProperties = last.rootProperties := by
    rcases retraced.root with same | same
    · exact same
    · exact (Option.some.inj same).symm
  have objects : now.objects = last.objects := by
    apply Table.eq_of_get?
    intro path
    rcases retraced.objects path with same | same
    · exact same
    · exact (Option.some.inj same).symm
  cases now
  cases last
  simp_all

end StoredContainer

namespace Creation

def firstFailure? : List Call → Storage → Option (Call × BackendError)
  | [], _ => none
  | call :: rest, before =>
      match call.run before with
      | .ok _ between => firstFailure? rest between
      | .error cause _ => some (call, cause)

def verdict {α : Type} (value : α) : Option (Call × BackendError) → Except ScenarioError α
  | none => .ok value
  | some (call, cause) => .error (call.failure cause)

section Calls

variable {calls done rest : List Call} {call : Call} {made : List Resource}
  {before between after : Storage} {cause : BackendError}

theorem first_failure_behind (rest : List Call) (ran : makeAll done before = .ok made between) :
    firstFailure? (done ++ rest) before = firstFailure? rest between := by
  induction done generalizing before made with
  | nil =>
      cases ran
      rfl
  | cons call later ih =>
      obtain ⟨_, next, ranCall, ranRest⟩ := bind_ok_iff.mp ran
      obtain ⟨_, _, ranLater, same⟩ := bind_ok_iff.mp ranRest
      cases same
      rw [List.cons_append, firstFailure?, ranCall]
      exact ih ranLater

theorem first_failure_of_error (failed : call.run before = .error cause after) :
    firstFailure? (call :: rest) before = some (call, cause) := by
  rw [firstFailure?, failed]

theorem outcome_of_performed {α : Type} {action : Work α} {value : α} {session start : Session}
    (performed : Performed calls start value (action session)) :
    outcome action session = verdict value (firstFailure? calls start.storage) := by
  cases result : action session with
  | ok ending after =>
      rw [outcome_of_ok result]
      rw [result] at performed
      cases performed with
      | all made _ ran _ =>
          have none := first_failure_behind [] ran
          rw [List.append_nil] at none
          rw [none]
          rfl
  | error error after =>
      rw [outcome_of_error result]
      rw [result] at performed
      cases performed with
      | upTo done call later split made between cause _ ran failed _ =>
          rw [split, first_failure_behind _ ran, first_failure_of_error failed]
          rfl

end Calls

namespace Call

def containerName : Call → String
  | .container handle _ => handle.name
  | .object handle _ _ => handle.container.name

def effect (location : Location) (call : Call) (found : Option StoredContainer) :
    Except BackendError StoredContainer :=
  match call with
  | .container _ properties => .ok (found.getD (.created properties))
  | .object handle body properties =>
      match body.contents, found with
      | .error cause, _ => .error (.io handle.canonicalName cause)
      | .ok _, none => .error (.notFound handle.container.canonicalName)
      | .ok data, some stored => .ok (stored.putObject handle.path
          ⟨StoredContainer.storedProperties location handle.kind properties, data⟩)

section Effects

variable {location : Location} {handle : ObjectHandle} {body : Body}
  {properties : ObjectProperties}

theorem effect_unreadable {cause : IoError} (unreadable : body.contents = .error cause)
    (found : Option StoredContainer) :
    (Call.object handle body properties).effect location found =
      .error (.io handle.canonicalName cause) := by
  simp only [effect, unreadable]

theorem effect_missing {data : Bytes} (readable : body.contents = .ok data) :
    (Call.object handle body properties).effect location none =
      .error (.notFound handle.container.canonicalName) := by
  simp only [effect, readable]

theorem effect_put {data : Bytes} (readable : body.contents = .ok data)
    (stored : StoredContainer) :
    (Call.object handle body properties).effect location (some stored) =
      .ok (stored.putObject handle.path
        ⟨StoredContainer.storedProperties location handle.kind properties, data⟩) := by
  simp only [effect, readable]

end Effects

variable {account : Account} {location : Location}

/-- A call reads and writes one container, and a refused call writes nothing. -/
theorem run_effect (call : Call) (onMemory : call.resource.serviceHandle = .memory account location)
    (before : Storage) :
    match call.effect location (before.container? account location call.containerName) with
    | .ok content => ∃ isNew after, call.run before = .ok isNew after ∧
        before.Becomes account location call.containerName (some content) after
    | .error cause => call.run before = .error cause before := by
  generalize here : before.container? account location call.containerName = found
  cases call with
  | container handle properties =>
      obtain ⟨_, name⟩ := handle
      cases onMemory
      have ran := ContainerHandle.create_on_memory account location name before properties
      rw [Table.contains, show (before.store account location).get? name = found from here] at ran
      cases found with
      | none => exact ⟨true, _, ran, Storage.becomes_insert _⟩
      | some stored => exact ⟨false, _, ran, Storage.becomes_same here⟩
  | object handle body properties =>
      obtain ⟨⟨_, name⟩, path, kind⟩ := handle
      cases onMemory
      cases readable : body.failure? with
      | some cause =>
          have contents : body.contents = .error cause := by simp only [Body.contents, readable]
          have failed := ObjectHandle.create_unreadable_on_memory account location name before
            path kind readable properties
          rw [effect_unreadable contents]
          exact bind_error_iff.mpr (Or.inl failed)
      | none =>
          have contents : body.contents = .ok body.yielded := by
            simp only [Body.contents, readable]
          cases found with
          | none =>
              have failed := ObjectHandle.create_missing_on_memory account location name before
                path kind here readable properties
              rw [effect_missing contents]
              exact bind_error_iff.mpr (Or.inl failed)
          | some stored =>
              have ran := ObjectHandle.create_on_memory account location name before
                path kind here readable properties
              rw [effect_put contents]
              exact ⟨true, _, bind_ok_iff.mpr ⟨(), _, ran, rfl⟩, Storage.becomes_insert _⟩

section Outcomes

variable {call : Call} {content : StoredContainer} {before after : Storage} {isNew : Bool}
  {cause : BackendError}

theorem run_of_effect (onMemory : call.resource.serviceHandle = .memory account location)
    (effect : call.effect location (before.container? account location call.containerName) =
      .ok content) :
    ∃ isNew after, call.run before = .ok isNew after ∧
      before.Becomes account location call.containerName (some content) after := by
  have ran := call.run_effect onMemory before
  rw [effect] at ran
  exact ran

theorem refused_of_effect (onMemory : call.resource.serviceHandle = .memory account location)
    (effect : call.effect location (before.container? account location call.containerName) =
      .error cause) : call.run before = .error cause before := by
  have failed := call.run_effect onMemory before
  rw [effect] at failed
  exact failed

theorem effect_of_ok (onMemory : call.resource.serviceHandle = .memory account location)
    (ran : call.run before = .ok isNew after) :
    ∃ content, call.effect location (before.container? account location call.containerName) =
        .ok content ∧
      before.Becomes account location call.containerName (some content) after := by
  cases effect : call.effect location
      (before.container? account location call.containerName) with
  | ok content =>
      obtain ⟨_, _, ranEffect, becomes⟩ := run_of_effect onMemory effect
      cases ranEffect.symm.trans ran
      exact ⟨content, rfl, becomes⟩
  | error cause => cases (refused_of_effect onMemory effect).symm.trans ran

theorem effect_of_error (onMemory : call.resource.serviceHandle = .memory account location)
    (failed : call.run before = .error cause after) :
    call.effect location (before.container? account location call.containerName) =
      .error cause := by
  cases effect : call.effect location
      (before.container? account location call.containerName) with
  | ok content =>
      obtain ⟨_, _, ranEffect, _⟩ := run_of_effect onMemory effect
      cases ranEffect.symm.trans failed
  | error other =>
      cases (refused_of_effect onMemory effect).symm.trans failed
      rfl

end Outcomes

theorem effect_retraced {call : Call} {first : Option StoredContainer}
    {made last now : StoredContainer} (effect : call.effect location first = .ok made)
    (retraced : StoredContainer.Retraced first last now) :
    ∃ content, call.effect location (some now) = .ok content ∧
      StoredContainer.Retraced (some made) last content := by
  cases call with
  | container handle properties =>
      refine ⟨now, rfl, ?_⟩
      cases first with
      | none => exact StoredContainer.retraced_opened retraced _
      | some stored =>
          cases effect
          exact retraced
  | object handle body properties =>
      cases contents : body.contents with
      | error cause =>
          rw [effect_unreadable contents] at effect
          cases effect
      | ok data =>
          cases first with
          | none =>
              rw [effect_missing contents] at effect
              cases effect
          | some stored =>
              rw [effect_put contents] at effect
              cases effect
              exact ⟨_, effect_put contents now, StoredContainer.retraced_put retraced _ _⟩

end Call

section Memory

variable {account : Account} {location : Location} {last first second : Storage}

structure Retraces (account : Account) (location : Location) (last first second : Storage) :
    Prop where
  elsewhere : last.SameElsewhere account location second
  here : ∀ name, Option.Rel
    (fun now left => StoredContainer.Retraced (first.container? account location name) left now)
    (second.container? account location name) (last.container? account location name)

theorem retraces_start (first last : Storage) : Retraces account location last first last where
  elsewhere := Storage.same_elsewhere_refl account location last
  here name := by
    cases last.container? account location name with
    | none => exact .none
    | some stored => exact .some ⟨rfl, Or.inl rfl, fun _ => Or.inl rfl⟩

theorem retraces_end (retraces : Retraces account location last last second) :
    second.store account location = last.store account location := by
  apply Table.eq_of_get?
  intro name
  have here := retraces.here name
  change second.container? account location name = last.container? account location name
  generalize last.container? account location name = left at here ⊢
  generalize second.container? account location name = now at here ⊢
  cases here with
  | none => rfl
  | some retraced => rw [StoredContainer.retraced_end retraced]

section Steps

variable {call : Call} {isNew : Bool} {cause : BackendError} {between : Storage}
  (onMemory : call.resource.serviceHandle = .memory account location)
include onMemory

theorem call_keeps_container (name : String) :
    Keeps (fun storage => (storage.container? account location name).isSome) call.run := by
  intro before there
  cases ran : call.run before with
  | error cause after =>
      rw [left_of_error ran, call_fails_unchanged onMemory ran]
      exact there
  | ok isNew after =>
      obtain ⟨content, _, becomes⟩ := Call.effect_of_ok onMemory ran
      rw [left_of_ok ran, becomes.here name]
      split
      · rfl
      · exact there

/-- Where the first run has ended at a refusal, the second one finds what the call was refused
for. -/
theorem call_refused_again (refused : call.run first = .error cause between)
    (same : second.store account location = first.store account location) :
    call.run second = .error cause second := by
  apply Call.refused_of_effect onMemory
  have found : second.container? account location call.containerName =
      first.container? account location call.containerName :=
    congrArg (·.get? call.containerName) same
  rw [found]
  exact Call.effect_of_error onMemory refused

/-- What is accepted on the first run is accepted on the second one, if the container that it
is about is among those that the first run leaves. -/
theorem call_retraces (ran : call.run first = .ok isNew between)
    (there : (last.container? account location call.containerName).isSome)
    (retraces : Retraces account location last first second) :
    ∃ again next, call.run second = .ok again next ∧
      Retraces account location last between next := by
  obtain ⟨made, effect, becomes⟩ := Call.effect_of_ok onMemory ran
  obtain ⟨lasting, isLasting⟩ := Option.isSome_iff_exists.mp there
  have found := retraces.here call.containerName
  rw [isLasting] at found
  cases isNow : second.container? account location call.containerName with
  | none =>
      rw [isNow] at found
      cases found
  | some now =>
      rw [isNow] at found
      cases found with
      | some retraced =>
          obtain ⟨content, effectAgain, retracedAfter⟩ := Call.effect_retraced effect retraced
          rw [← isNow] at effectAgain
          obtain ⟨again, next, ranAgain, becomesAgain⟩ :=
            Call.run_of_effect onMemory effectAgain
          refine ⟨again, next, ranAgain,
            Storage.same_elsewhere_trans retraces.elsewhere becomesAgain.elsewhere, ?_⟩
          intro other
          rw [becomes.here other, becomesAgain.here other]
          split
          next same =>
            rw [same, isLasting]
            exact .some retracedAfter
          next => exact retraces.here other

end Steps

theorem make_all_keeps_container {calls : List Call}
    (onMemory : ∀ call ∈ calls, call.resource.serviceHandle = .memory account location)
    (name : String) :
    Keeps (fun storage => (storage.container? account location name).isSome)
      (makeAll calls) := by
  induction calls with
  | nil => exact pure_keeps []
  | cons call rest ih =>
      apply bind_keeps (call_keeps_container (onMemory call List.mem_cons_self) name)
      intro _
      apply bind_keeps (ih fun other member => onMemory other (List.mem_cons_of_mem call member))
      intro _
      exact pure_keeps _

theorem make_all_retraces {calls : List Call}
    (onMemory : ∀ call ∈ calls, call.resource.serviceHandle = .memory account location)
    (ends : left (makeAll calls) first = last)
    (retraces : Retraces account location last first second) :
    firstFailure? calls second = firstFailure? calls first ∧
      Retraces account location last last (left (makeAll calls) second) := by
  -- The induction is on the calls still to make. At every point the second run is somewhere
  -- between where the first run was and where it ended.
  induction calls generalizing first second with
  | nil =>
      cases ends
      exact ⟨rfl, retraces⟩
  | cons call rest ih =>
      have here := onMemory call List.mem_cons_self
      have onMemoryRest : ∀ other ∈ rest,
          other.resource.serviceHandle = .memory account location :=
        fun other member => onMemory other (List.mem_cons_of_mem call member)
      cases ran : call.run first with
      | error cause after =>
          rw [left_of_refused ran, call_fails_unchanged here ran] at ends
          cases ends
          have again := call_refused_again here ran (retraces_end retraces)
          rw [first_failure_of_error ran, first_failure_of_error again, left_of_refused again]
          exact ⟨rfl, retraces⟩
      | ok isNew between =>
          rw [left_of_made ran] at ends
          obtain ⟨made, _, becomes⟩ := Call.effect_of_ok here ran
          have opened : (between.container? account location call.containerName).isSome := by
            rw [becomes.here, if_pos rfl]
            rfl
          have there : (last.container? account location call.containerName).isSome :=
            ends ▸ make_all_keeps_container onMemoryRest call.containerName between opened
          obtain ⟨_, next, again, goesOn⟩ := call_retraces here ran there retraces
          have later := ih onMemoryRest ends goesOn
          rw [firstFailure?, firstFailure?, ran, again, left_of_made again]
          exact later

end Memory

end Creation

theorem Definition.lift_any_session {definition lifted : Definition} {base : Resource}
    {steps : Nat} {session between : Session}
    (distance : definition.level.depth = base.level.depth + steps)
    (named : definition.generatedNames steps = 0)
    (ran : liftTimes steps definition session = .ok lifted between) (again : Session) :
    ∃ after : Session, liftTimes steps definition again = .ok lifted after ∧
      after.storage = again.storage := by
  cases steps with
  | zero =>
      cases ran
      exact ⟨again, rfl, rfl⟩
  | succ wrappers =>
      have nested : definition.level ≠ .service := by
        intro top
        rw [top] at distance
        simp [Level.depth] at distance
      obtain ⟨name, hasName⟩ : ∃ name, definition.name? = some name := by
        apply Option.isSome_iff_exists.mp
        by_contra unnamed
        simp [generatedNames, unnamed] at named
      have noWrappers : wrappers = 0 := by
        simpa [generatedNames, hasName] using named
      subst noWrappers
      obtain ⟨wrapper, wrapped, _⟩ := wrap_then_lower nested name
      have lifts : ∀ state : Session, ∃ after : Session,
          liftTimes 1 definition state = .ok wrapper after ∧ after.storage = state.storage := by
        intro state
        have own : definition.wrap (definition.ownOrNext state.context.names).1 = .ok wrapper := by
          simpa [ownOrNext, hasName] using wrapped
        obtain ⟨log, lift⟩ := lift_yields nested state own
        exact ⟨_, Work.bind_ok_iff.mpr ⟨wrapper, _, lift, rfl⟩, rfl⟩
      obtain ⟨_, first, _⟩ := lifts session
      cases first.symm.trans ran
      exact lifts again

namespace Creation

/-- A creation on an emulated account that takes no generated name can be made again, in the
same session or in another one that finds the storage as the first left it. It comes to the
same resource, or to the same failure, and the service is afterwards as it was before,
however many spellings of one path the definition has, whatever was there before the first
run, and even if a body cannot be read. -/
theorem create_again {account : Account} {location : Location} {base : Resource}
    (definition : Definition) (session : Session)
    (onMemory : base.serviceHandle = .memory account location)
    (named : definition.generatedNames (definition.level.depth - base.level.depth) = 0) :
    let made := left (create base definition) session
    ∀ again : Session, again.storage = made.storage →
      let remade := left (create base definition) again
      outcome (create base definition) again = outcome (create base definition) session ∧
        remade.storage.store account location = made.storage.store account location ∧
        made.storage.SameElsewhere account location remade.storage := by
  intro made again sameStorage remade
  by_cases shallow : base.level ≤ definition.level
  · have distance : definition.level.depth =
        base.level.depth + (definition.level.depth - base.level.depth) :=
      (Nat.add_sub_cancel' shallow).symm
    obtain ⟨lifted, target, ⟨log, ranLift⟩, sameLevel, _, _, lowered⟩ :=
      Definition.lift_then_lower _ definition base session distance
    obtain ⟨between, ranAgain, unchanged⟩ :=
      Definition.lift_any_session distance named ranLift again
    have performed := create_performs shallow ranLift sameLevel lowered
    have performedAgain := create_performs shallow ranAgain sameLevel lowered
    have first := storage_of_performed performed
    change made.storage = left (makeAll (plan base lifted)) session.storage at first
    have second : remade.storage = left (makeAll (plan base lifted)) made.storage := by
      rw [← sameStorage, ← unchanged]
      exact storage_of_performed performedAgain
    have plannedHere : ∀ call ∈ plan base lifted,
        call.resource.serviceHandle = .memory account location :=
      fun call planned => (plan_service planned).trans onMemory
    obtain ⟨sameFailure, retraces⟩ :=
      make_all_retraces plannedHere first.symm (retraces_start session.storage made.storage)
    rw [← second] at retraces
    refine ⟨?_, retraces_end retraces, retraces.elsewhere⟩
    rw [outcome_of_performed performed, outcome_of_performed performedAgain, unchanged,
      sameStorage, sameFailure]
  · have refused := create_deeper shallow
    have unmade : made = session := left_of_error (refused session)
    have notRemade : remade = again := left_of_error (refused again)
    have sameEnd : remade.storage = made.storage := by rw [notRemade, sameStorage]
    rw [outcome_of_error (refused session), outcome_of_error (refused again), sameEnd]
    exact ⟨rfl, rfl, Storage.same_elsewhere_refl account location made.storage⟩

/-- Two spellings of one path with two bodies, an entry that is to be absent, and a container
that was there with other properties. At an object without a container both runs fail. -/
theorem create_again_two_spellings :
    let account : Account := ⟨0, "account", .hierarchicalNamespace⟩
    let service : ServiceHandle := .memory account .blobFs
    let object (bytes : Bytes) : ObjectDefinition := { body := some (.buffered bytes) }
    let named : Definition := .container
      { name := some "c"
        properties := { metadata := some (Table.singleton "k" "asked") }
        objects := .flat (Table.ofList
          [("a//b", object [1]), ("a/b", object [2]), ("z", { shouldExist := some false })]) }
    let orphan : Resource := .object ((service.container "missing").object "x" .file)
    let session : Session :=
      ⟨⟨"scenario", {}, .counting "n", [], []⟩,
        (Storage.fresh (.ofDirectories ⟨0⟩ [])).setStore account .blobFs (Table.singleton "c"
          (StoredContainer.created { metadata := some (Table.singleton "k" "kept") })), []⟩
    let made := left (create (.service service) named) session
    let remade := left (create (.service service) named) made
    let refused := left (create orphan (.object (object [1]))) session
    named.generatedNames (named.level.depth - (Resource.service service).level.depth) = 0 ∧
      remade.storage.store account .blobFs = made.storage.store account .blobFs ∧
      ((made.storage.container? account .blobFs "c").map fun stored =>
        (stored.properties, stored.objects.entries.map fun entry => (entry.1, entry.2.data))) =
        some ({ metadata := some (Table.singleton "k" "kept") }, [("a/b", [2])]) ∧
      outcome (create orphan (.object (object [1]))) refused =
        (.error (.backend .createObject "account/blobfs/missing/x"
          (.notFound "account/blobfs/missing")) : Except ScenarioError Resource) := by
  intro account service object named orphan session made remade refused
  have noNames : named.generatedNames
      (named.level.depth - (Resource.service service).level.depth) = 0 := rfl
  have again := create_again named session rfl noNames made rfl
  have refusedAgain := create_again (.object (object [1])) session
    (show orphan.serviceHandle = .memory account .blobFs from rfl) rfl refused rfl
  refine ⟨noNames, again.2.1, by decide +kernel, ?_⟩
  rw [refusedAgain.1]
  rfl

end Creation

end StorageScenario
