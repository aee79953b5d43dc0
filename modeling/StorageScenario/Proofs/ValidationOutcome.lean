import StorageScenario.Proofs.CreationRun
import StorageScenario.Proofs.ValidationRun

/-!
How a validation ends. On an emulated account only a download can end it early,
and only where a file with a body should be and a folder is that nobody stored: the
root folder of a container, or a folder that is there because of what is below it.
What was found up to there stays recorded, and the rest is not looked at.
-/

namespace StorageScenario

def Definition.AllReadable : Definition → Prop
  | .service inner => ∀ container ∈ inner.containers.entries,
      ∀ entry ∈ container.2.objects.flatten.entries, entry.2.IsReadable
  | .container inner => ∀ entry ∈ inner.objects.flatten.entries, entry.2.IsReadable
  | .object inner => inner.IsReadable

namespace Validation

open Work

section Stops

variable (store : ServiceStore) (compareContents : Bool)

/-- The object itself, if its contents are to be compared and nothing is stored that
has any. -/
def objectStop? (handle : ObjectHandle) (definition : ObjectDefinition) : Option ObjectHandle :=
  if compareContents && definition.isWanted && (Divergence.seenObject? store handle).isSome &&
      (comparedBody? definition).isSome && (Divergence.storedObject? store handle).isNone then
    some handle
  else none

def containerStop? (handle : ContainerHandle) (definition : ContainerDefinition) :
    Option ObjectHandle :=
  if definition.isWanted && (store.get? handle.name).isSome then
    definition.objects.flatten.entries.findSome? fun entry =>
      objectStop? store compareContents (handle.object entry.1 entry.2.properties.kind) entry.2
  else none

def stop? (target : Resource) (definition : Definition) : Option ObjectHandle :=
  match target, definition with
  | .service handle, .service inner =>
      inner.containers.entries.findSome? fun entry =>
        containerStop? store compareContents (handle.container entry.1) entry.2
  | .container handle, .container inner => containerStop? store compareContents handle inner
  | .object handle, .object inner => objectStop? store compareContents handle inner
  | _, _ => none

/-- The folder is there for the sake of what is inside, or as the root of its container. -/
def UnstoredFolder (store : ServiceStore) (handle : ObjectHandle) : Prop :=
  ∃ stored, store.get? handle.container.name = some stored ∧
    stored.objects.get? handle.path = none ∧
    (handle.path = "" ∨ handle.location.isHierarchical ∧ stored.isImplicitFolder handle.path)

/-- What the rounds of a loop find, with the round that stops as the last one. -/
def upToStop {α : Type} (stop : α → Option ObjectHandle) (found : α → List SoftFailure) :
    List α → List SoftFailure
  | [] => []
  | entry :: rest => found entry ++ if (stop entry).isSome then [] else upToStop stop found rest

def containerReported (handle : ContainerHandle) (definition : ContainerDefinition) :
    List SoftFailure :=
  match definition.isWanted, store.get? handle.name with
  | true, some stored =>
      Field.failures handle.location.containerFields handle.canonicalName definition.properties
        stored.properties ++
        upToStop
          (fun entry => objectStop? store compareContents
            (handle.object entry.1 entry.2.properties.kind) entry.2)
          (fun entry => Divergence.ofObject store compareContents
            (handle.object entry.1 entry.2.properties.kind) entry.2)
          definition.objects.flatten.entries
  | _, _ => Divergence.ofContainer store compareContents handle definition

def reported (target : Resource) (definition : Definition) : List SoftFailure :=
  match target, definition with
  | .service handle, .service inner =>
      upToStop
        (fun entry => containerStop? store compareContents (handle.container entry.1) entry.2)
        (fun entry => containerReported store compareContents (handle.container entry.1) entry.2)
        inner.containers.entries
  | .container handle, .container inner => containerReported store compareContents handle inner
  | .object handle, .object inner => Divergence.ofObject store compareContents handle inner
  | _, _ => []

end Stops

section Parts

variable {α : Type} {stop : α → Option ObjectHandle} {part whole : α → List SoftFailure}

theorem up_to_stop_begins (entries : List α)
    (begins : ∀ entry ∈ entries, part entry <+: whole entry)
    (complete : ∀ entry ∈ entries, stop entry = none → part entry = whole entry) :
    upToStop stop part entries <+: entries.flatMap whole := by
  induction entries with
  | nil => exact List.nil_prefix
  | cons head rest ih =>
      have later := ih (fun entry member => begins entry (by simp [member]))
        fun entry member => complete entry (by simp [member])
      rw [List.flatMap_cons, upToStop]
      cases stops : stop head with
      | none =>
          rw [complete head (by simp) stops]
          simpa using (List.prefix_append_right_inj (whole head)).mpr later
      | some handle =>
          have here := begins head (by simp)
          simpa using here.trans (List.prefix_append (whole head) (rest.flatMap whole))

theorem up_to_stop_complete (entries : List α)
    (complete : ∀ entry ∈ entries, stop entry = none → part entry = whole entry)
    (goesOn : entries.findSome? stop = none) :
    upToStop stop part entries = entries.flatMap whole := by
  induction entries with
  | nil => rfl
  | cons head rest ih =>
      have never := List.findSome?_eq_none_iff.mp goesOn
      have later := ih (fun entry member => complete entry (by simp [member]))
        (List.findSome?_eq_none_iff.mpr fun entry member => never entry (by simp [member]))
      have goesOnHere : stop head = none := never head (by simp)
      rw [List.flatMap_cons, upToStop, complete head (by simp) goesOnHere, goesOnHere, later]
      rfl

variable (store : ServiceStore) (compareContents : Bool)

theorem container_reported_alone {store : ServiceStore} {compareContents : Bool}
    {handle : ContainerHandle} {definition : ContainerDefinition}
    (stops : (definition.isWanted && (store.get? handle.name).isSome) = false) :
    containerReported store compareContents handle definition =
      Divergence.ofContainer store compareContents handle definition := by
  unfold containerReported
  cases wanted : definition.isWanted with
  | false => rfl
  | true =>
      cases found : store.get? handle.name with
      | none => rfl
      | some stored => simp [wanted, found] at stops

theorem container_reported_begins (handle : ContainerHandle) (definition : ContainerDefinition) :
    containerReported store compareContents handle definition <+:
      Divergence.ofContainer store compareContents handle definition := by
  unfold containerReported Divergence.ofContainer
  cases definition.isWanted with
  | false => exact List.prefix_refl _
  | true =>
      cases store.get? handle.name with
      | none => exact List.prefix_refl _
      | some stored =>
          apply (List.prefix_append_right_inj _).mpr
          exact up_to_stop_begins _ (fun _ _ => List.prefix_refl _) fun _ _ _ => rfl

theorem container_reported_complete (handle : ContainerHandle)
    (definition : ContainerDefinition)
    (goesOn : containerStop? store compareContents handle definition = none) :
    containerReported store compareContents handle definition =
      Divergence.ofContainer store compareContents handle definition := by
  unfold containerStop? at goesOn
  unfold containerReported Divergence.ofContainer
  cases wanted : definition.isWanted with
  | false => rfl
  | true =>
      cases found : store.get? handle.name with
      | none => rfl
      | some stored =>
          rw [wanted, found] at goesOn
          exact congrArg _ (up_to_stop_complete _ (fun _ _ _ => rfl) goesOn)

theorem reported_begins (target : Resource) (definition : Definition) :
    reported store compareContents target definition <+:
      divergences store compareContents target definition := by
  cases target <;> cases definition
  case service.service handle inner =>
    exact up_to_stop_begins _
      (fun entry _ => container_reported_begins store compareContents _ entry.2)
      fun entry _ => container_reported_complete store compareContents _ entry.2
  case container.container handle inner =>
    exact container_reported_begins store compareContents handle inner
  all_goals exact List.prefix_refl _

theorem reported_complete {target : Resource} {definition : Definition}
    (goesOn : stop? store compareContents target definition = none) :
    reported store compareContents target definition =
      divergences store compareContents target definition := by
  cases target <;> cases definition
  case service.service handle inner =>
    exact up_to_stop_complete _
      (fun entry _ => container_reported_complete store compareContents _ entry.2) goesOn
  case container.container handle inner =>
    exact container_reported_complete store compareContents handle inner goesOn
  all_goals rfl

end Parts

section Objects

variable {store : ServiceStore} {compareContents : Bool} {handle : ObjectHandle}
  {definition : ObjectDefinition}

theorem compared_body_declared {body : Body} (compared : comparedBody? definition = some body) :
    definition.properties.kind = .file ∧ definition.body = some body := by
  unfold comparedBody? at compared
  split at compared
  next isFile => exact ⟨isFile, compared⟩
  next => cases compared

theorem object_stop_iff {stopped : ObjectHandle} :
    objectStop? store compareContents handle definition = some stopped ↔
      stopped = handle ∧ compareContents ∧ definition.isWanted ∧
        (Divergence.seenObject? store handle).isSome ∧ (comparedBody? definition).isSome ∧
        Divergence.storedObject? store handle = none := by
  unfold objectStop?
  split
  next all =>
    simp only [Bool.and_eq_true, and_assoc, Option.isNone_iff_eq_none] at all
    constructor
    · intro same
      exact ⟨(Option.some.inj same).symm, all⟩
    · rintro ⟨same, _⟩
      rw [same]
  next notAll =>
    simp only [Bool.and_eq_true, and_assoc, Option.isNone_iff_eq_none] at notAll
    constructor
    · intro same
      cases same
    · rintro ⟨_, all⟩
      exact absurd all notAll

theorem comparable_without_stop
    (goesOn : objectStop? store compareContents handle definition = none)
    (readable : definition.IsReadable) (compares : compareContents) :
    ObjectComparable store handle definition := by
  intro wanted isSeen body compared
  have isReadable := readable body (compared_body_declared compared).2
  cases stored : Divergence.storedObject? store handle with
  | some object => exact ⟨rfl, Body.hashable_of_readable isReadable⟩
  | none =>
      have stops := object_stop_iff.mpr ⟨rfl, compares, wanted, isSeen,
        Option.isSome_of_eq_some compared, stored⟩
      rw [goesOn] at stops
      cases stops

theorem object_stops_at_folder {stopped : ObjectHandle}
    (stops : objectStop? store compareContents handle definition = some stopped) :
    UnstoredFolder store stopped := by
  obtain ⟨rfl, _, _, isSeen, _, notStored⟩ := object_stop_iff.mp stops
  obtain ⟨properties, seen⟩ := Option.isSome_iff_exists.mp isSeen
  obtain ⟨stored, found, shown⟩ := Option.bind_eq_some_iff.mp seen
  have noObject : stored.objects.get? stopped.path = none := by
    simpa [Divergence.storedObject?, found] using notStored
  refine ⟨stored, found, noObject, ?_⟩
  by_cases atRoot : stopped.path = ""
  · exact Or.inl atRoot
  · refine Or.inr ?_
    unfold StoredContainer.objectProperties? at shown
    rw [if_neg atRoot, noObject] at shown
    by_cases implicit : (stopped.location.isHierarchical &&
        stored.isImplicitFolder stopped.path) = true
    · exact Bool.and_eq_true_iff.mp implicit
    · simp [implicit] at shown

theorem container_stops_at_folder {container : ContainerHandle}
    {definition : ContainerDefinition} {stopped : ObjectHandle}
    (stops : containerStop? store compareContents container definition = some stopped) :
    UnstoredFolder store stopped := by
  unfold containerStop? at stops
  split at stops
  · obtain ⟨entry, _, objectStops⟩ := List.exists_of_findSome?_eq_some stops
    exact object_stops_at_folder objectStops
  · cases stops

/-- Only a folder that nobody stored ends a walk. -/
theorem stops_at_folder {target : Resource} {definition : Definition} {stopped : ObjectHandle}
    (stops : stop? store compareContents target definition = some stopped) :
    UnstoredFolder store stopped := by
  cases target <;> cases definition
  case service.service =>
    obtain ⟨entry, _, containerStops⟩ := List.exists_of_findSome?_eq_some stops
    exact container_stops_at_folder containerStops
  case container.container => exact container_stops_at_folder stops
  case object.object => exact object_stops_at_folder stops
  all_goals cases stops

end Objects

section Reporting

variable {α β : Type} {before : Session} {found : List SoftFailure}

def downloadFailure (handle : ObjectHandle) : ScenarioError :=
  .backend .downloadObject handle.canonicalName (.notFound handle.canonicalName)

/-- The action records what it finds and then goes on or ends with a download. -/
def Reports (action : Work α) (before : Session) (value : α) (found : List SoftFailure)
    (stop : Option ObjectHandle) : Prop :=
  match stop with
  | none => action.Yields before value (before.context.withFailures found) before.storage
  | some handle => ∃ log, action before =
      .error (downloadFailure handle) ⟨before.context.withFailures found, before.storage, log⟩

theorem reports_after {action : Work α} {next : α → Work β} {middle : α} {value : β}
    {early : List SoftFailure} {stop : Option ObjectHandle}
    (first : action.Yields before middle (before.context.withFailures early) before.storage)
    (rest : ∀ log,
      Reports (next middle) ⟨before.context.withFailures early, before.storage, log⟩
        value found stop) :
    Reports (action >>= next) before value (early ++ found) stop := by
  unfold Reports at rest ⊢
  rw [← Context.with_failures_twice]
  cases stop with
  | none => exact bind_yields first rest
  | some handle =>
      obtain ⟨log, ran⟩ := first
      obtain ⟨last, stopped⟩ := rest log
      exact ⟨last, bind_error_iff.mpr (Or.inr ⟨middle, _, ran, stopped⟩)⟩

theorem reports_next {action : Work α} {next : α → Work β} {middle : α} {value : β}
    {stop : Option ObjectHandle}
    (first : action.Yields before middle before.context before.storage)
    (rest : ∀ log,
      Reports (next middle) ⟨before.context, before.storage, log⟩ value found stop) :
    Reports (action >>= next) before value found stop := by
  rw [← Context.with_no_failures before.context] at first rest
  exact reports_after first rest

theorem reports_stop {action : Work α} {next : α → Work β} {middle : α} (value : β)
    {handle : ObjectHandle} (first : Reports action before middle found (some handle)) :
    Reports (action >>= next) before value found (some handle) := by
  obtain ⟨log, stopped⟩ := first
  exact ⟨log, bind_error_iff.mpr (Or.inl stopped)⟩

theorem reports_before {action : Work α} {next : α → Work β} {middle : α} {value : β}
    {stop : Option ObjectHandle} (first : Reports action before middle found stop)
    (rest : ∀ session, (next middle).Yields session value session.context session.storage) :
    Reports (action >>= next) before value found stop := by
  cases stop with
  | none => exact bind_yields first fun log => rest _
  | some handle => exact reports_stop value first

/-- A loop whose every round reports what it finds reports all of it, up to the first
round that stops. -/
theorem loop_reports {storage : Storage} {step : α → Work Unit} {found : α → List SoftFailure}
    {stop : α → Option ObjectHandle} (entries : List α)
    (each : ∀ entry ∈ entries, ∀ session, session.storage = storage →
      Reports (step entry) session () (found entry) (stop entry))
    (session : Session) (here : session.storage = storage) :
    Reports (entries.forM step) session () (upToStop stop found entries)
      (entries.findSome? stop) := by
  induction entries generalizing session with
  | nil =>
      change Yields _ _ _ (session.context.withFailures []) _
      rw [Context.with_no_failures]
      exact pure_yields () session
  | cons entry rest ih =>
      have head := each entry (by simp) session here
      rw [upToStop, List.findSome?_cons]
      cases stops : stop entry with
      | none =>
          rw [stops] at head
          apply reports_after head
          intro log
          exact ih (fun other member => each other (by simp [member])) _ here
      | some handle =>
          rw [stops] at head
          simpa using reports_stop () head

theorem visit_reports {callbacks : Callbacks Session} {resource : Resource}
    {definition : Definition} {children : Work Unit} {early : List SoftFailure}
    {stop : Option ObjectHandle} (sameLevel : resource.level = definition.level)
    (called : Yields (callbacks.invoke resource definition) before .descend
      (before.context.withFailures early) before.storage)
    (rest : ∀ log,
      Reports children ⟨before.context.withFailures early, before.storage, log⟩ ()
      found stop) :
    Reports (callbacks.visit resource definition children) before () (early ++ found) stop := by
  rw [visit_at_level children sameLevel]
  exact reports_after called rest

theorem visit_reports_stop {callbacks : Callbacks Session} {resource : Resource}
    {definition : Definition} {children : Work Unit} {traversal : Traversal}
    {handle : ObjectHandle} (sameLevel : resource.level = definition.level)
    (called : Reports (callbacks.invoke resource definition) before traversal found
      (some handle)) :
    Reports (callbacks.visit resource definition children) before () found (some handle) := by
  rw [visit_at_level children sameLevel]
  exact reports_stop () called

end Reporting

variable {account : Account} {location : Location} {compareContents : Bool}

section Object

variable {handle : ObjectHandle} {definition : ObjectDefinition} {session : Session}

theorem of_contents_not_stored {store : ServiceStore}
    (notStored : Divergence.storedObject? store handle = none) :
    Divergence.ofContents store handle definition = [] := by
  unfold Divergence.ofContents
  rw [notStored]
  split
  next stored => cases stored
  next => rfl

theorem contents_stop (onMemory : handle.container.service = .memory account location)
    (body : Body) {storage : Storage}
    (notStored : Divergence.storedObject? (storage.store account location) handle = none)
    (here : session.storage = storage) :
    Reports (contents handle body) session () [] (some handle) := by
  have call := stored_on_memory onMemory session.storage
  rw [here, notStored] at call
  have failed : access .downloadObject handle.canonicalName handle.download session =
      .error (downloadFailure handle) session := by
    simp only [access, here, call]
    rw [← here]
    rfl
  unfold Reports
  rw [Context.with_no_failures]
  exact ⟨session.log, bind_error_iff.mpr (Or.inl failed)⟩

theorem object_reports_stop (onMemory : handle.container.service = .memory account location)
    {stopped : ObjectHandle}
    (stops : objectStop? (session.storage.store account location) compareContents handle
      definition = some stopped) :
    Reports (object compareContents (.object handle) (.object definition)) session .descend
      (Divergence.ofObject (session.storage.store account location) compareContents handle
        definition) (some stopped) := by
  obtain ⟨same, compares, wanted, isSeen, isCompared, notStored⟩ := object_stop_iff.mp stops
  obtain ⟨body, compared⟩ := Option.isSome_iff_exists.mp isCompared
  obtain ⟨actual, seen⟩ := Option.isSome_iff_exists.mp isSeen
  subst same compares
  have present := present_on_memory onMemory session.storage
  rw [seen] at present
  unfold Divergence.ofObject
  rw [wanted, seen]
  change Reports _ _ _
    (Field.failures (stopped.location.kindFields stopped.path ++ _) _ _ _ ++ _) _
  rw [Field.failures_append, ← Mismatch.of_kind_failures, ← Mismatch.of_object_failures,
    List.append_assoc]
  apply reports_next (pure_yields definition session)
  intro _
  apply reports_next (pure_yields stopped _)
  intro _
  refine reports_next (access_yields present) fun _ => ?_
  rw [wanted]
  apply reports_next (existence_passes _ _)
  intro _
  refine reports_next (access_yields (seen_on_memory onMemory seen)) fun _ => ?_
  apply reports_after (record_all_yields _ _ _)
  intro _
  apply reports_after (record_all_yields _ _ _)
  intro _
  -- Both look-ups before have found the folder; the download looks at stored objects only.
  dsimp only
  rw [compared]
  rw [if_pos rfl, of_contents_not_stored notStored]
  change Reports (contents stopped body >>= fun _ => pure Traversal.descend) _ _ _ _
  apply reports_stop
  exact contents_stop onMemory body notStored rfl

variable (handle definition session) in
theorem visit_object_reports (onMemory : handle.container.service = .memory account location)
    (compareContents : Bool) (readable : definition.IsReadable) :
    Reports ((callbacks compareContents).visitObject (.object handle) definition) session ()
      (Divergence.ofObject (session.storage.store account location) compareContents handle
        definition)
      (objectStop? (session.storage.store account location) compareContents handle
        definition) := by
  cases stops : objectStop? (session.storage.store account location) compareContents handle
      definition with
  | none =>
      exact visit_object_yields handle definition session onMemory compareContents
        (comparable_without_stop stops readable)
  | some stopped =>
      have called := object_reports_stop onMemory stops
      exact visit_reports_stop rfl called

end Object

section Container

variable {handle : ContainerHandle} {definition : ContainerDefinition}

variable (handle definition) in
theorem visit_container_reports (session : Session)
    (onMemory : handle.service = .memory account location) (compareContents : Bool)
    (readable : ∀ entry ∈ definition.objects.flatten.entries, entry.2.IsReadable) :
    Reports ((callbacks compareContents).visitContainer (.container handle) definition) session ()
      (containerReported (session.storage.store account location) compareContents handle
        definition)
      (containerStop? (session.storage.store account location) compareContents handle
        definition) := by
  unfold containerStop?
  by_cases goesOn : (definition.isWanted &&
      ((session.storage.store account location).get? handle.name).isSome) = true
  · obtain ⟨wanted, isFound⟩ := Bool.and_eq_true_iff.mp goesOn
    obtain ⟨stored, found⟩ := Option.isSome_iff_exists.mp isFound
    unfold containerReported
    rw [if_pos goesOn, wanted, found]
    refine visit_reports rfl (container_compares onMemory wanted found) fun log => ?_
    refine loop_reports definition.objects.flatten.entries ?_ _ rfl
    intro entry member current here
    have each := visit_object_reports (handle.object entry.1 entry.2.properties.kind)
      (entry.2.boundTo entry.1) current onMemory compareContents (readable entry member)
    rw [here] at each
    exact each
  · have stops := Bool.eq_false_iff.mpr goesOn
    rw [if_neg goesOn, container_reported_alone stops]
    exact visit_skips rfl (container_stops onMemory compareContents stops)

end Container

variable {target : Resource} {definition : Definition}

theorem traverse_reports (session : Session)
    (onMemory : target.serviceHandle = .memory account location)
    (sameLevel : target.level = definition.level) (readable : definition.AllReadable) :
    Reports (definition.traverse (callbacks compareContents) target) session ()
      (reported (session.storage.store account location) compareContents target definition)
      (stop? (session.storage.store account location) compareContents target definition) := by
  cases definition with
  | service inner =>
      cases target with
      | service handle =>
          refine loop_reports inner.containers.entries ?_ session rfl
          intro entry member current here
          have each := visit_container_reports (handle.container entry.1)
            (entry.2.boundTo entry.1) current onMemory compareContents (readable entry member)
          rw [here] at each
          exact each
      | container handle => cases sameLevel
      | object handle => cases sameLevel
  | container inner =>
      cases target with
      | service handle => cases sameLevel
      | container handle =>
          exact visit_container_reports handle inner session onMemory compareContents readable
      | object handle => cases sameLevel
  | object inner =>
      cases target with
      | service handle => cases sameLevel
      | container handle => cases sameLevel
      | object handle =>
          exact visit_object_reports handle inner session onMemory compareContents readable

theorem validate_reports (compareContents : Bool) (session : Session)
    (onMemory : target.serviceHandle = .memory account location)
    (sameLevel : target.level = definition.level)
    (wet : session.context.settings.dryRun = false) (readable : definition.AllReadable) :
    Reports (validate target definition compareContents) session ()
      (reported (session.storage.store account location) compareContents target definition)
      (stop? (session.storage.store account location) compareContents target definition) := by
  unfold validate
  rw [Definition.check_level_same sameLevel]
  refine reports_next (pure_yields () session) fun _ => ?_
  refine reports_next (pure_yields session.context _) fun _ => ?_
  rw [wet, if_neg (by simp)]
  apply reports_before (traverse_reports _ onMemory sameLevel readable)
  intro current
  exact bind_yields (pure_yields current.context current) fun _ => note_yields _ _ _

/-- A validation with readable bodies succeeds and records every divergence, unless
contents are compared and the walk comes to a file with a body where there is only a
folder that nobody stored. There the download fails, and with it the validation, after
it has recorded the divergences up to there. -/
theorem validate_outcome (compareContents : Bool) (session : Session)
    (onMemory : target.serviceHandle = .memory account location)
    (sameLevel : target.level = definition.level)
    (wet : session.context.settings.dryRun = false) (readable : definition.AllReadable) :
    let store := session.storage.store account location
    (stop? store compareContents target definition = none → ∃ after,
      validate target definition compareContents session = .ok () after ∧
        after.context = session.context.withFailures
          (divergences store compareContents target definition) ∧
        after.storage = session.storage) ∧
      ∀ handle, stop? store compareContents target definition = some handle →
        UnstoredFolder store handle ∧ ∃ after,
        validate target definition compareContents session =
            .error (.backend .downloadObject handle.canonicalName
              (.notFound handle.canonicalName)) after ∧
          after.context = session.context.withFailures
            (reported store compareContents target definition) ∧
          reported store compareContents target definition <+:
            divergences store compareContents target definition ∧
          after.storage = session.storage := by
  intro store
  have reports := validate_reports compareContents session onMemory sameLevel wet readable
  constructor
  · intro goesOn
    have complete := reported_complete store compareContents goesOn
    rw [goesOn, complete] at reports
    obtain ⟨log, ran⟩ := reports
    exact ⟨_, ran, rfl, rfl⟩
  · intro handle stops
    rw [stops] at reports
    obtain ⟨log, failed⟩ := reports
    exact ⟨stops_at_folder stops, _, failed, rfl,
      reported_begins store compareContents target definition, rfl⟩

/-- An object inside a folder makes the folder seen, so a file that should be there
instead is not only recorded: the walk never comes to the object that is missing. -/
theorem validate_outcome_implicit_folder :
    let account : Account := ⟨0, "account", .hierarchicalNamespace⟩
    let objects : Table ObjectDefinition := Table.ofList
      [("dir", { body := some (.buffered []) }), ("dir/x", {}), ("missing", {})]
    let target : ContainerHandle := ⟨.memory account .blobFs, "c"⟩
    let definition : ContainerDefinition := { objects := .flat objects }
    let stored : StoredContainer := ⟨{}, .folder, Table.singleton "dir/x" ⟨{}, []⟩⟩
    let session : Session :=
      ⟨⟨"scenario", {}, .counting "n", [], []⟩,
        (Storage.fresh (.ofDirectories ⟨0⟩ [])).setStore account .blobFs
          (Table.singleton "c" stored), []⟩
    Definition.AllReadable (.container definition) ∧
      divergences (session.storage.store account .blobFs) true (.container target)
        (.container definition) =
          [.property "account/blobfs/c/dir" "entity type" "file" "folder",
            .existence "account/blobfs/c/missing" true] ∧
      ∃ after,
        validate (.container target) (.container definition) true session =
          .error (.backend .downloadObject "account/blobfs/c/dir"
            (.notFound "account/blobfs/c/dir")) after ∧
        after.context.failures =
          [.property "account/blobfs/c/dir" "entity type" "file" "folder"] := by
  intro account objects target definition stored session
  have readable : Definition.AllReadable (.container definition) := by
    intro entry member
    have entries : definition.objects.flatten.entries =
        [("dir", { body := some (.buffered []) }), ("dir/x", {}), ("missing", {})] := by
      rfl
    rw [entries] at member
    simp only [List.mem_cons, List.not_mem_nil, or_false] at member
    rcases member with same | same | same
    · rw [same]
      intro body declared
      cases declared
      rfl
    · rw [same]
      intro body declared
      cases declared
    · rw [same]
      intro body declared
      cases declared
  have onMemory : (Resource.container target).serviceHandle = .memory account .blobFs := rfl
  have stops : stop? (session.storage.store account .blobFs) true (.container target)
      (.container definition) = some (target.object "dir" .file) := by decide +kernel
  refine ⟨readable, by decide +kernel, ?_⟩
  obtain ⟨_, after, failed, context, _⟩ :=
    (validate_outcome true session onMemory rfl rfl readable).2 _ stops
  refine ⟨after, failed, ?_⟩
  rw [context]
  decide +kernel

end Validation

end StorageScenario
