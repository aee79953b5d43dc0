import StorageScenario.Proofs.Divergence
import StorageScenario.Proofs.MemoryCalls
import StorageScenario.Proofs.Outcomes

/-!
Validation on an emulated account. A run that succeeds records exactly the
divergences of the store from the definition and changes nothing else that can be
read back; and it succeeds just when the contents that it comes to compare can be
had on both sides.
-/

namespace StorageScenario

namespace Body

def Hashable (body : Body) : Prop := ∃ digest, body.digest = .ok digest

theorem hashable_of_readable {body : Body} (readable : body.failure? = none) :
    body.Hashable := by
  unfold Hashable digest contents
  rw [readable]
  cases body.ownDigest? with
  | some own => exact ⟨own, rfl⟩
  | none => exact ⟨_, rfl⟩

end Body

namespace Context

def withFailures (context : Context) (failures : List SoftFailure) : Context :=
  { context with failures := context.failures ++ failures }

theorem with_no_failures (context : Context) : context.withFailures [] = context := by
  simp [withFailures]

theorem with_failures_twice (context : Context) (first second : List SoftFailure) :
    (context.withFailures first).withFailures second =
      context.withFailures (first ++ second) := by
  simp [withFailures]

end Context

namespace Validation

open Work

section Recording

variable {α : Type} {storage : Storage}

theorem record_all_yields (resource : String) (mismatches : List Mismatch) (session : Session) :
    (recordAll resource mismatches).Yields session ()
      (session.context.withFailures (mismatches.map (·.toFailure resource))) session.storage := by
  induction mismatches generalizing session with
  | nil =>
      rw [List.map_nil, Context.with_no_failures]
      exact pure_yields () session
  | cons mismatch rest ih =>
      change Yields _ _ _ (session.context.withFailures
        ([mismatch.toFailure resource] ++ rest.map (·.toFailure resource))) _
      rw [← Context.with_failures_twice]
      exact bind_yields (record_yields _ session) fun log => ih _

theorem loop_records {step : α → Work Unit} {found : α → List SoftFailure} (entries : List α)
    (each : ∀ entry ∈ entries, ∀ session, session.storage = storage →
      (step entry).Yields session () (session.context.withFailures (found entry)) storage)
    (session : Session) (here : session.storage = storage) :
    (entries.forM step).Yields session ()
      (session.context.withFailures (entries.flatMap found)) storage := by
  induction entries generalizing session with
  | nil =>
      rw [List.flatMap_nil, Context.with_no_failures, ← here]
      exact pure_yields () session
  | cons entry rest ih =>
      rw [List.flatMap_cons, ← Context.with_failures_twice]
      apply bind_yields (each entry (by simp) session here)
      intro log
      exact ih (fun other member => each other (by simp [member])) _ rfl

theorem existence_yields (resource : String) (expected actual : Bool) (session : Session) :
    (existence resource expected actual).Yields session (expected && actual)
      (session.context.withFailures
        (if expected = actual then [] else [.existence resource expected])) session.storage := by
  cases expected <;> cases actual
  · rw [if_pos rfl, Context.with_no_failures]
    exact bind_yields (note_yields _ _ session) fun _ => pure_yields _ _
  · exact bind_yields (record_yields _ session) fun _ => pure_yields _ _
  · exact bind_yields (record_yields _ session) fun _ => pure_yields _ _
  · rw [if_pos rfl, Context.with_no_failures]
    exact pure_yields _ session

theorem existence_passes (resource : String) (session : Session) :
    (existence resource true true).Yields session true session.context session.storage :=
  pure_yields true session

end Recording

variable {account : Account} {location : Location}

/-- The contents that a validation comes to compare can be had on both sides. -/
def ObjectComparable (store : ServiceStore) (handle : ObjectHandle)
    (definition : ObjectDefinition) : Prop :=
  definition.isWanted → (Divergence.seenObject? store handle).isSome →
    ∀ body, comparedBody? definition = some body →
      (Divergence.storedObject? store handle).isSome ∧ body.Hashable

def ContainerComparable (store : ServiceStore) (handle : ContainerHandle)
    (definition : ContainerDefinition) : Prop :=
  definition.isWanted → (store.get? handle.name).isSome →
    ∀ entry ∈ definition.objects.flatten.entries,
      ObjectComparable store (handle.object entry.1 entry.2.properties.kind) entry.2

section Object

variable {handle : ObjectHandle} {definition : ObjectDefinition}
  {session : Session}

theorem present_on_memory (onMemory : handle.container.service = .memory account location)
    (storage : Storage) :
    handle.isPresent storage =
      .ok (Divergence.seenObject? (storage.store account location) handle).isSome storage := by
  obtain ⟨⟨_, name⟩, path, kind⟩ := handle
  cases onMemory
  rw [ObjectHandle.is_present_on_memory]
  unfold Divergence.seenObject?
  dsimp only
  cases (storage.store account location).get? name with
  | none => rfl
  | some stored =>
      simp only [StoredContainer.has_object_iff, Option.bind_some]
      rfl

theorem seen_on_memory (onMemory : handle.container.service = .memory account location)
    {storage : Storage} {properties : ObjectProperties}
    (seen : Divergence.seenObject? (storage.store account location) handle = some properties) :
    handle.properties storage = .ok properties storage := by
  obtain ⟨⟨_, name⟩, path, kind⟩ := handle
  cases onMemory
  obtain ⟨stored, found, held⟩ := Option.bind_eq_some_iff.mp seen
  exact ObjectHandle.properties_on_memory account location name storage path kind found held

theorem stored_on_memory (onMemory : handle.container.service = .memory account location)
    (storage : Storage) :
    handle.download storage =
      match Divergence.storedObject? (storage.store account location) handle with
      | some object => .ok (.ok object.data) storage
      | none => .error (.notFound handle.canonicalName) storage := by
  obtain ⟨⟨_, name⟩, path, kind⟩ := handle
  cases onMemory
  exact ObjectHandle.download_on_memory account location name storage path kind

theorem contents_yields (onMemory : handle.container.service = .memory account location)
    {body : Body} {object : StoredObject}
    (stored : Divergence.storedObject? (session.storage.store account location) handle =
      some object)
    {wanted : Digest} (hashed : body.digest = .ok wanted) :
    (contents handle body).Yields session ()
      (session.context.withFailures
        (if Digest.ofBytes object.data = wanted then []
          else
            [.contentHash handle.canonicalName wanted.hex (Digest.ofBytes object.data).hex]))
      session.storage := by
  have call := stored_on_memory onMemory session.storage
  rw [stored] at call
  refine bind_yields (access_yields call) fun log => ?_
  dsimp only
  rw [hashed]
  dsimp only
  by_cases same : Digest.ofBytes object.data = wanted
  · rw [if_neg (by simpa using same), if_pos same, Context.with_no_failures]
    exact pure_yields _ _
  · rw [if_pos same, if_neg same]
    exact record_yields _ _

theorem contents_ok (onMemory : handle.container.service = .memory account location)
    {body : Body} {after : Session} (ran : contents handle body session = .ok () after) :
    (Divergence.storedObject? (session.storage.store account location) handle).isSome ∧
      body.Hashable := by
  obtain ⟨downloaded, between, ranCall, ranRest⟩ := bind_ok_iff.mp ran
  unfold access at ranCall
  rw [stored_on_memory onMemory] at ranCall
  cases stored : Divergence.storedObject? (session.storage.store account location) handle with
  | none => simp [stored] at ranCall
  | some object =>
      rw [stored] at ranCall
      cases ranCall
      refine ⟨rfl, ?_⟩
      cases hashed : body.digest with
      | ok digest => exact ⟨digest, hashed⟩
      | error cause =>
          dsimp only at ranRest
          rw [hashed] at ranRest
          cases ranRest

theorem of_contents_compared {store : ServiceStore} {body : Body} {object : StoredObject}
    (compared : comparedBody? definition = some body)
    (stored : Divergence.storedObject? store handle = some object)
    {wanted : Digest} (hashed : body.digest = .ok wanted) :
    Divergence.ofContents store handle definition =
      if Digest.ofBytes object.data = wanted then []
      else [.contentHash handle.canonicalName wanted.hex (Digest.ofBytes object.data).hex] := by
  unfold comparedBody? at compared
  unfold Divergence.ofContents
  split at compared
  next isFile => rw [isFile, compared, stored, Option.map_some, hashed]
  next => cases compared

theorem of_contents_not_compared {store : ServiceStore}
    (compared : comparedBody? definition = none) :
    Divergence.ofContents store handle definition = [] := by
  unfold comparedBody? at compared
  unfold Divergence.ofContents
  split at compared
  next isFile => rw [isFile, compared, Option.map_none]
  next notFile =>
    cases isKind : definition.properties.kind with
    | file => exact absurd isKind notFile
    | folder => rfl

theorem comparison_yields (onMemory : handle.container.service = .memory account location)
    (compareContents : Bool) :
    (compareContents → ∀ body, comparedBody? definition = some body →
      (Divergence.storedObject? (session.storage.store account location) handle).isSome ∧
        body.Hashable) →
    (match compareContents, comparedBody? definition with
      | true, some body => do
          contents handle body
          return .descend
      | _, _ => return .descend : Work Traversal).Yields session .descend
      (session.context.withFailures
        (if compareContents then
          Divergence.ofContents (session.storage.store account location) handle definition
        else [])) session.storage := by
  intro comparable
  cases compareContents with
  | false =>
      rw [if_neg (by simp), Context.with_no_failures]
      exact pure_yields _ session
  | true =>
      rw [if_pos rfl]
      cases compared : comparedBody? definition with
      | none =>
          rw [of_contents_not_compared compared, Context.with_no_failures]
          exact pure_yields _ session
      | some body =>
          obtain ⟨isStored, wanted, hashed⟩ := comparable rfl body compared
          obtain ⟨object, stored⟩ := Option.isSome_iff_exists.mp isStored
          rw [of_contents_compared compared stored hashed]
          exact bind_yields (contents_yields onMemory stored hashed) fun _ => pure_yields _ _

theorem object_compares (onMemory : handle.container.service = .memory account location)
    (compareContents : Bool)
    (comparable : compareContents →
      ObjectComparable (session.storage.store account location) handle definition)
    {actual : ObjectProperties} (wanted : definition.isWanted)
    (seen : Divergence.seenObject? (session.storage.store account location) handle =
      some actual) :
    (object compareContents (.object handle) (.object definition)).Yields session .descend
      (session.context.withFailures
        (Divergence.ofObject (session.storage.store account location) compareContents handle
          definition)) session.storage := by
  have present := present_on_memory onMemory session.storage
  rw [seen] at present
  unfold Divergence.ofObject
  rw [wanted, seen]
  change Yields _ _ _ (session.context.withFailures
    (Field.failures (handle.location.kindFields handle.path ++ _) _ _ _ ++ _)) _
  rw [Field.failures_append, ← Mismatch.of_kind_failures, ← Mismatch.of_object_failures,
    List.append_assoc, ← Context.with_failures_twice, ← Context.with_failures_twice]
  apply bind_yields (pure_yields definition session)
  intro _
  apply bind_yields (pure_yields handle _)
  intro _
  refine bind_yields (access_yields present) fun _ => ?_
  rw [wanted]
  apply bind_yields (existence_passes _ _)
  intro _
  refine bind_yields (access_yields (seen_on_memory onMemory seen)) fun _ => ?_
  apply bind_yields (record_all_yields _ _ _)
  intro _
  apply bind_yields (record_all_yields _ _ _)
  intro _
  apply comparison_yields onMemory compareContents
  intro compares body
  exact comparable compares wanted (by rw [seen]; rfl) body

theorem object_stops (onMemory : handle.container.service = .memory account location)
    (compareContents : Bool)
    (stops : (definition.isWanted &&
      (Divergence.seenObject? (session.storage.store account location) handle).isSome) = false) :
    (object compareContents (.object handle) (.object definition)).Yields session .skipChildren
      (session.context.withFailures
        (Divergence.ofObject (session.storage.store account location) compareContents handle
          definition)) session.storage := by
  rw [Divergence.of_object_stops stops]
  apply bind_yields (pure_yields definition session)
  intro _
  apply bind_yields (pure_yields handle _)
  intro _
  refine bind_yields (access_yields (present_on_memory onMemory _)) fun _ => ?_
  apply bind_yields (existence_yields _ _ _ _)
  intro _
  rw [stops]
  exact pure_yields _ _

variable (handle definition session) in
theorem visit_object_yields (onMemory : handle.container.service = .memory account location)
    (compareContents : Bool)
    (comparable : compareContents →
      ObjectComparable (session.storage.store account location) handle definition) :
    Yields ((callbacks compareContents).visitObject (.object handle) definition) session ()
      (session.context.withFailures
        (Divergence.ofObject (session.storage.store account location) compareContents handle
          definition)) session.storage := by
  by_cases goesOn : (definition.isWanted &&
      (Divergence.seenObject? (session.storage.store account location) handle).isSome) = true
  · obtain ⟨wanted, isSeen⟩ := Bool.and_eq_true_iff.mp goesOn
    obtain ⟨actual, seen⟩ := Option.isSome_iff_exists.mp isSeen
    have called := object_compares onMemory compareContents comparable wanted seen
    exact visit_descends rfl called fun _ => pure_yields _ _
  · have stops := Bool.eq_false_iff.mpr goesOn
    exact visit_skips rfl (object_stops onMemory compareContents stops)

theorem visit_object_ok (onMemory : handle.container.service = .memory account location)
    {before after : Session}
    (ran : (callbacks true).visitObject (.object handle) definition before = .ok () after) :
    ObjectComparable (before.storage.store account location) handle definition := by
  intro wanted isSeen body compared
  obtain ⟨actual, seen⟩ := Option.isSome_iff_exists.mp isSeen
  obtain ⟨traversal, between, ranObject⟩ : ∃ traversal between,
      object true (.object handle) (.object definition) before = .ok traversal between := by
    rcases (visit_ok_iff rfl).mp ran with ⟨between, ranObject, _⟩ | ranObject
    · exact ⟨_, between, ranObject⟩
    · exact ⟨_, after, ranObject⟩
  have present := present_on_memory onMemory before.storage
  rw [seen] at present
  obtain ⟨_, ran⟩ := ok_after_yields ranObject (pure_yields definition before)
  obtain ⟨_, ran⟩ := ok_after_yields ran (pure_yields handle _)
  dsimp only at ran
  obtain ⟨_, ran⟩ := ok_after_yields ran (access_yields present)
  rw [wanted] at ran
  obtain ⟨_, ran⟩ := ok_after_yields ran (existence_passes _ _)
  obtain ⟨_, ran⟩ := ok_after_yields ran (access_yields (seen_on_memory onMemory seen))
  obtain ⟨_, ran⟩ := ok_after_yields ran (record_all_yields _ _ _)
  obtain ⟨_, ran⟩ := ok_after_yields ran (record_all_yields _ _ _)
  dsimp only at ran
  rw [compared] at ran
  obtain ⟨_, _, ranContents, _⟩ := bind_ok_iff.mp ran
  have comparable := contents_ok onMemory ranContents
  exact comparable

theorem visit_object_keeps (onMemory : handle.container.service = .memory account location)
    {before after : Session}
    (ran : (callbacks true).visitObject (.object handle) definition before = .ok () after) :
    after.storage = before.storage :=
  (yields_of_ok (visit_object_yields handle definition before onMemory true fun _ =>
    visit_object_ok onMemory ran) ran).2.2

end Object

section Container

variable {handle : ContainerHandle} {definition : ContainerDefinition}
  {session : Session}

theorem container_present_on_memory (onMemory : handle.service = .memory account location)
    (storage : Storage) :
    handle.isPresent storage =
      .ok ((storage.store account location).get? handle.name).isSome storage := by
  obtain ⟨_, name⟩ := handle
  cases onMemory
  exact ContainerHandle.is_present_on_memory account location name storage

theorem container_compares (onMemory : handle.service = .memory account location)
    {stored : StoredContainer} (wanted : definition.isWanted)
    (found : (session.storage.store account location).get? handle.name = some stored) :
    (container (.container handle) (.container definition)).Yields session .descend
      (session.context.withFailures
        (Field.failures handle.location.containerFields handle.canonicalName
          definition.properties stored.properties)) session.storage := by
  have call : handle.properties session.storage = .ok stored.properties session.storage := by
    obtain ⟨_, name⟩ := handle
    cases onMemory
    exact ContainerHandle.properties_on_memory account location name session.storage found
  have present := container_present_on_memory onMemory session.storage
  rw [found] at present
  rw [← Mismatch.of_container_failures]
  apply bind_yields (pure_yields definition session)
  intro _
  apply bind_yields (pure_yields handle _)
  intro _
  refine bind_yields (access_yields present) fun _ => ?_
  rw [wanted]
  apply bind_yields (existence_passes _ _)
  intro _
  refine bind_yields (access_yields call) fun _ => ?_
  exact bind_yields (record_all_yields _ _ _) fun _ => pure_yields _ _

theorem container_stops (onMemory : handle.service = .memory account location)
    (compareContents : Bool)
    (stops : (definition.isWanted &&
      ((session.storage.store account location).get? handle.name).isSome) = false) :
    (container (.container handle) (.container definition)).Yields session .skipChildren
      (session.context.withFailures
        (Divergence.ofContainer (session.storage.store account location) compareContents handle
          definition)) session.storage := by
  rw [Divergence.of_container_stops stops]
  apply bind_yields (pure_yields definition session)
  intro _
  apply bind_yields (pure_yields handle _)
  intro _
  refine bind_yields (access_yields (container_present_on_memory onMemory _)) fun _ => ?_
  apply bind_yields (existence_yields _ _ _ _)
  intro _
  rw [stops]
  exact pure_yields _ _

variable (handle) in
theorem visit_objects_yield (onMemory : handle.service = .memory account location)
    (compareContents : Bool) (entries : List (String × ObjectDefinition)) {storage : Storage}
    (comparable : compareContents → ∀ entry ∈ entries,
      ObjectComparable (storage.store account location)
        (handle.object entry.1 entry.2.properties.kind) entry.2)
    (session : Session) (here : session.storage = storage) :
    Yields
      (entries.forM fun entry => do
        let child ← check ((Resource.container handle).child entry.1 entry.2.properties.kind)
        (callbacks compareContents).visitObject child (entry.2.boundTo entry.1))
      session ()
      (session.context.withFailures
        (entries.flatMap fun entry =>
          Divergence.ofObject (storage.store account location) compareContents
            (handle.object entry.1 entry.2.properties.kind) entry.2)) storage := by
  refine loop_records entries ?_ session here
  intro entry member current here
  have each := visit_object_yields (handle.object entry.1 entry.2.properties.kind)
    (entry.2.boundTo entry.1) current onMemory compareContents
  rw [here] at each
  exact each fun compares => comparable compares entry member

variable (handle definition session) in
theorem visit_container_yields (onMemory : handle.service = .memory account location)
    (compareContents : Bool)
    (comparable : compareContents →
      ContainerComparable (session.storage.store account location) handle definition) :
    Yields ((callbacks compareContents).visitContainer (.container handle) definition) session ()
      (session.context.withFailures
        (Divergence.ofContainer (session.storage.store account location) compareContents handle
          definition)) session.storage := by
  by_cases goesOn : (definition.isWanted &&
      ((session.storage.store account location).get? handle.name).isSome) = true
  · obtain ⟨wanted, isFound⟩ := Bool.and_eq_true_iff.mp goesOn
    obtain ⟨stored, found⟩ := Option.isSome_iff_exists.mp isFound
    unfold Divergence.ofContainer
    rw [wanted, found]
    dsimp only
    rw [← Context.with_failures_twice]
    refine visit_descends rfl (container_compares onMemory wanted found) fun _ => ?_
    exact visit_objects_yield handle onMemory compareContents definition.objects.flatten.entries
      (fun compares => comparable compares wanted isFound) _ rfl
  · have stops := Bool.eq_false_iff.mpr goesOn
    exact visit_skips rfl (container_stops onMemory compareContents stops)

theorem visit_container_ok (onMemory : handle.service = .memory account location)
    {before after : Session}
    (ran : (callbacks true).visitContainer (.container handle) definition before = .ok () after) :
    ContainerComparable (before.storage.store account location) handle definition := by
  intro wanted isFound
  obtain ⟨stored, found⟩ := Option.isSome_iff_exists.mp isFound
  have compares := container_compares onMemory wanted found
  rcases (visit_ok_iff rfl).mp ran with ⟨between, ranContainer, ranLoop⟩ | ranContainer
  · have sameStorage := (yields_of_ok compares ranContainer).2.2
    refine forM_ok_each (fun session => session.storage = before.storage)
      definition.objects.flatten.entries ?_ sameStorage ranLoop
    intro entry member current next here ranEntry
    have ranVisit : (callbacks true).visitObject
        (.object (handle.object entry.1 entry.2.properties.kind)) (entry.2.boundTo entry.1)
        current = .ok () next := ranEntry
    have comparable := visit_object_ok onMemory ranVisit
    rw [here] at comparable
    exact ⟨(visit_object_keeps onMemory ranVisit).trans here, comparable⟩
  · cases (yields_of_ok compares ranContainer).1

theorem visit_container_keeps (onMemory : handle.service = .memory account location)
    {before after : Session}
    (ran : (callbacks true).visitContainer (.container handle) definition before = .ok () after) :
    after.storage = before.storage :=
  (yields_of_ok (visit_container_yields handle definition before onMemory true fun _ =>
    visit_container_ok onMemory ran) ran).2.2

end Container

section Service

variable {handle : ServiceHandle} {definition : ServiceDefinition}

theorem visit_service_yields (onMemory : handle = .memory account location) (session : Session)
    (compareContents : Bool)
    (comparable : compareContents → ∀ entry ∈ definition.containers.entries,
      ContainerComparable (session.storage.store account location) (handle.container entry.1)
        entry.2) :
    Yields ((callbacks compareContents).visitService (.service handle) definition) session ()
      (session.context.withFailures
        (Divergence.ofService (session.storage.store account location) compareContents handle
          definition)) session.storage := by
  refine loop_records definition.containers.entries ?_ session rfl
  intro entry member current here
  have each := visit_container_yields (handle.container entry.1) (entry.2.boundTo entry.1) current
    onMemory compareContents
  rw [here] at each
  exact each fun compares => comparable compares entry member

theorem visit_service_ok (onMemory : handle = .memory account location) {before after : Session}
    (ran : (callbacks true).visitService (.service handle) definition before = .ok () after) :
    ∀ entry ∈ definition.containers.entries,
      ContainerComparable (before.storage.store account location) (handle.container entry.1)
        entry.2 := by
  refine forM_ok_each (fun session => session.storage = before.storage)
    definition.containers.entries ?_ rfl ran
  intro entry member current next here ranEntry
  have ranVisit : (callbacks true).visitContainer (.container (handle.container entry.1))
      (entry.2.boundTo entry.1) current = .ok () next := ranEntry
  have comparable := visit_container_ok onMemory ranVisit
  rw [here] at comparable
  exact ⟨(visit_container_keeps onMemory ranVisit).trans here, comparable⟩

end Service

def Comparable (store : ServiceStore) (target : Resource) (definition : Definition) : Prop :=
  match target, definition with
  | .service handle, .service inner =>
      ∀ entry ∈ inner.containers.entries,
        ContainerComparable store (handle.container entry.1) entry.2
  | .container handle, .container inner => ContainerComparable store handle inner
  | .object handle, .object inner => ObjectComparable store handle inner
  | _, _ => False

section Runs

variable {target : Resource} {definition : Definition}
  {compareContents : Bool}

theorem traverse_yields (onMemory : target.serviceHandle = .memory account location)
    (sameLevel : target.level = definition.level) (session : Session)
    (comparable : compareContents →
      Comparable (session.storage.store account location) target definition) :
    Yields (definition.traverse (callbacks compareContents) target) session ()
      (session.context.withFailures
        (divergences (session.storage.store account location) compareContents target definition))
      session.storage := by
  cases definition with
  | service inner =>
      cases target with
      | service handle => exact visit_service_yields onMemory session compareContents comparable
      | container handle => cases sameLevel
      | object handle => cases sameLevel
  | container inner =>
      cases target with
      | service handle => cases sameLevel
      | container handle =>
          exact visit_container_yields handle inner session onMemory compareContents comparable
      | object handle => cases sameLevel
  | object inner =>
      cases target with
      | service handle => cases sameLevel
      | container handle => cases sameLevel
      | object handle =>
          exact visit_object_yields handle inner session onMemory compareContents comparable

theorem traverse_ok (onMemory : target.serviceHandle = .memory account location)
    (sameLevel : target.level = definition.level) {before after : Session}
    (ran : definition.traverse (callbacks true) target before = .ok () after) :
    Comparable (before.storage.store account location) target definition := by
  cases definition with
  | service inner =>
      cases target with
      | service handle => exact visit_service_ok onMemory ran
      | container handle => cases sameLevel
      | object handle => cases sameLevel
  | container inner =>
      cases target with
      | service handle => cases sameLevel
      | container handle => exact visit_container_ok onMemory ran
      | object handle => cases sameLevel
  | object inner =>
      cases target with
      | service handle => cases sameLevel
      | container handle => cases sameLevel
      | object handle => exact visit_object_ok onMemory ran

theorem check_level_ok {before after : Session}
    (ran : (check (definition.checkLevel target) : Work Unit) before = .ok () after) :
    target.level = definition.level ∧ after = before := by
  unfold Definition.checkLevel at ran
  split at ran
  next same =>
    cases ran
    exact ⟨same, rfl⟩
  next => cases ran

theorem validate_yields (onMemory : target.serviceHandle = .memory account location)
    (sameLevel : target.level = definition.level) {session : Session}
    (wet : session.context.settings.dryRun = false)
    (comparable : compareContents →
      Comparable (session.storage.store account location) target definition) :
    (validate target definition compareContents).Yields session ()
      (session.context.withFailures
        (divergences (session.storage.store account location) compareContents target definition))
      session.storage := by
  unfold validate
  rw [Definition.check_level_same sameLevel]
  refine bind_yields (pure_yields () session) fun _ => ?_
  refine bind_yields (pure_yields session.context _) fun _ => ?_
  rw [wet, if_neg (by simp)]
  refine bind_yields (traverse_yields onMemory sameLevel _ comparable) fun _ => ?_
  refine bind_yields (pure_yields _ _) fun _ => ?_
  exact note_yields _ _ _

theorem validate_ok (onMemory : target.serviceHandle = .memory account location)
    {session after : Session} (wet : session.context.settings.dryRun = false)
    (ran : validate target definition compareContents session = .ok () after) :
    target.level = definition.level ∧
      (compareContents →
        Comparable (session.storage.store account location) target definition) := by
  obtain ⟨_, _, ranCheck, ran⟩ := bind_ok_iff.mp ran
  obtain ⟨sameLevel, same⟩ := check_level_ok ranCheck
  rw [same] at ran
  refine ⟨sameLevel, fun compares => ?_⟩
  subst compares
  obtain ⟨_, ran⟩ := ok_after_yields ran (pure_yields session.context session)
  rw [wet, if_neg (by simp)] at ran
  obtain ⟨_, _, ranTraverse, _⟩ := bind_ok_iff.mp ran
  have comparable := traverse_ok onMemory sameLevel ranTraverse
  exact comparable

end Runs

/-- Validation is sound and complete: what a run that succeeds records is what the
store diverges in, in the order of the walk, and it leaves everything else alone. -/
theorem validate_records_divergences {account : Account} {location : Location}
    {target : Resource} {definition : Definition} {compareContents : Bool}
    {session after : Session} (onMemory : target.serviceHandle = .memory account location)
    (wet : session.context.settings.dryRun = false)
    (ran : validate target definition compareContents session = .ok () after) :
    after.context.failures =
        session.context.failures ++
          divergences (session.storage.store account location) compareContents target
            definition ∧
      after.context = { session.context with failures := after.context.failures } ∧
      after.storage = session.storage := by
  obtain ⟨sameLevel, comparable⟩ := validate_ok onMemory wet ran
  obtain ⟨_, context, storage⟩ :=
    yields_of_ok (validate_yields onMemory sameLevel wet comparable) ran
  rw [context]
  exact ⟨rfl, rfl, storage⟩

/-- A header that differs and an object that is missing, next to contents that agree. -/
theorem validate_records_divergences_two_objects :
    let account : Account := ⟨0, "account", .standard⟩
    let objects : Table ObjectDefinition := Table.ofList
      [("a", { body := some (.buffered [1]), properties := { headers := { contentType := "x" } } }),
        ("b", {})]
    let definition : ServiceDefinition := ⟨Table.singleton "c" { objects := .flat objects }⟩
    let stored : StoredContainer := ⟨{}, .folder, Table.singleton "a" ⟨{}, [1]⟩⟩
    let session : Session :=
      ⟨⟨"scenario", {}, .counting "n", [], []⟩,
        (Storage.fresh (.ofDirectories ⟨0⟩ [])).setStore account .blobFs
          (Table.singleton "c" stored), []⟩
    ∃ after,
      validate (.service (.memory account .blobFs)) (.service definition) true session =
        .ok () after ∧
      after.context.failures =
        [.property "account/blobfs/c/a" "content type" "\"x\"" "<unset>",
          .existence "account/blobfs/c/b" true] := by
  intro account objects definition stored session
  have entries : objects.entries =
      [("a", { body := some (.buffered [1]), properties := { headers := { contentType := "x" } } }),
        ("b", {})] := by
    rfl
  have comparable : Comparable (session.storage.store account .blobFs)
      (.service (.memory account .blobFs)) (.service definition) := by
    intro container member _ _ object inside wanted seen body compared
    simp only [definition, Table.singleton, List.mem_singleton] at member
    subst member
    change object ∈ objects.entries at inside
    rw [entries] at inside
    simp only [List.mem_cons, List.not_mem_nil, or_false] at inside
    rcases inside with rfl | rfl
    · cases compared
      exact ⟨by decide +kernel, Body.hashable_of_readable rfl⟩
    · cases compared
  obtain ⟨log, ran⟩ := validate_yields rfl rfl rfl fun _ => comparable
  refine ⟨_, ran, ?_⟩
  rw [(validate_records_divergences rfl rfl ran).1]
  decide +kernel

end Validation

end StorageScenario
