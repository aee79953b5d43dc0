import StorageScenario.Proofs.Confinement
import StorageScenario.Proofs.MemoryCalls

/-!
What one back-end call on an emulated account depends on and what it changes: the container
that its resource is, or is in. So calls that are confined to some containers come to the
same answers wherever those containers are the same, and they leave all others alone.
-/

namespace StorageScenario

open Cleanup (containerName?)

variable {account : Account} {location : Location}

namespace Storage

def container? (storage : Storage) (account : Account) (location : Location) (name : String) :
    Option StoredContainer :=
  (storage.store account location).get? name

/-- One container has become this, or is gone, and the others are as they were. -/
def Rewrites (account : Account) (location : Location) (name : String)
    (content : Option StoredContainer) (before after : Storage) : Prop :=
  ∀ other, after.container? account location other =
    if other = name then content else before.container? account location other

def Alike (account : Account) (location : Location) (inside : String → Prop)
    (first second : Storage) : Prop :=
  ∀ name, inside name →
    first.container? account location name = second.container? account location name

variable {storage : Storage} {name : String}

theorem rewrites_nothing {content : Option StoredContainer}
    (here : storage.container? account location name = content) :
    Rewrites account location name content storage storage := by
  intro other
  split
  · rename_i same
    rw [same, here]
  · rfl

theorem rewrites_insert (stored : StoredContainer) :
    Rewrites account location name (some stored) storage
      (storage.setStore account location
        ((storage.store account location).insert name stored)) := by
  intro other
  unfold container?
  rw [store_set_store, Table.get?_insert]

theorem rewrites_erase :
    Rewrites account location name none storage
      (storage.setStore account location ((storage.store account location).erase name)) := by
  intro other
  unfold container?
  rw [store_set_store, Table.get?_erase]

end Storage

namespace Request

theorem ask_ok {request : Request} {answer : request.Answer} {before after : Storage}
    (ran : request.call before = .ok answer after) : request.ask before = (.ok answer, after) := by
  unfold ask
  rw [ran]

theorem ask_error {request : Request} {cause : BackendError} {before after : Storage}
    (failed : request.call before = .error cause after) :
    request.ask before = (.error cause, after) := by
  unfold ask
  rw [failed]

/-- The answer depends on one container alone, and so does what becomes of it. No other
container is changed. -/
def ActsOn (account : Account) (location : Location) (name : String) (request : Request) : Prop :=
  ∃ act : Option StoredContainer →
      Except BackendError request.Answer × Option StoredContainer,
    ∀ storage,
      (request.ask storage).1 = (act (storage.container? account location name)).1 ∧
        storage.Rewrites account location name
          (act (storage.container? account location name)).2 (request.ask storage).2

section Acts

variable {name path : String} {kind : EntityKind}

theorem acts_of_looks {request : Request} {name : String}
    (answer : Option StoredContainer → Except BackendError request.Answer)
    (looks : ∀ storage,
      request.ask storage = (answer (storage.container? account location name), storage)) :
    request.ActsOn account location name := by
  refine ⟨fun found => (answer found, found), fun storage => ?_⟩
  rw [looks storage]
  exact ⟨rfl, Storage.rewrites_nothing rfl⟩

theorem container_is_present_acts :
    (containerIsPresent ⟨.memory account location, name⟩).ActsOn account location name :=
  acts_of_looks (fun found => .ok found.isSome) fun _ => rfl

theorem container_properties_acts :
    (containerProperties ⟨.memory account location, name⟩).ActsOn account location name := by
  let handle : ContainerHandle := ⟨.memory account location, name⟩
  refine acts_of_looks (fun found =>
    found.elim (.error (.notFound handle.canonicalName)) fun stored => .ok stored.properties)
    fun storage => ?_
  unfold Storage.container?
  cases found : (storage.store account location).get? name with
  | none => exact ask_error (StoredResources.container_bind_missing _ _ _ _ _ found _)
  | some stored => exact ask_ok (ContainerHandle.properties_on_memory _ _ _ _ found)

theorem object_is_present_acts :
    (objectIsPresent ⟨⟨.memory account location, name⟩, path, kind⟩).ActsOn account location
      name := by
  refine acts_of_looks (fun found =>
    found.elim (.ok false) fun stored => .ok (stored.hasObject location.isHierarchical path))
    fun storage => ?_
  have ran := ObjectHandle.is_present_on_memory account location name storage path kind
  unfold Storage.container?
  cases found : (storage.store account location).get? name with
  | none =>
      rw [found] at ran
      exact ask_ok ran
  | some stored =>
      rw [found] at ran
      exact ask_ok ran

theorem object_properties_acts :
    (objectProperties ⟨⟨.memory account location, name⟩, path, kind⟩).ActsOn
      account location name := by
  let handle : ObjectHandle := ⟨⟨.memory account location, name⟩, path, kind⟩
  refine acts_of_looks (fun found =>
    (found.bind (·.objectProperties? location.isHierarchical path)).elim
      (.error (.notFound handle.canonicalName)) .ok) fun storage => ?_
  unfold Storage.container?
  cases found : (storage.store account location).get? name with
  | none => exact ask_error (StoredResources.container_bind_missing _ _ _ _ _ found _)
  | some stored =>
      rw [Option.bind_some]
      cases held : stored.objectProperties? location.isHierarchical path with
      | none =>
          exact ask_error (ObjectHandle.properties_missing_on_memory _ _ _ _ _ _ found held)
      | some properties =>
          exact ask_ok (ObjectHandle.properties_on_memory _ _ _ _ _ _ found held)

theorem download_acts :
    (download ⟨⟨.memory account location, name⟩, path, kind⟩).ActsOn
      account location name := by
  let handle : ObjectHandle := ⟨⟨.memory account location, name⟩, path, kind⟩
  refine acts_of_looks (fun found =>
    (found.bind (·.objects.get? path)).elim (.error (.notFound handle.canonicalName))
      fun object => .ok (.ok object.data)) fun storage => ?_
  have ran := ObjectHandle.download_on_memory account location name storage path kind
  unfold Storage.container?
  cases found : ((storage.store account location).get? name).bind (·.objects.get? path) with
  | none =>
      rw [found] at ran
      exact ask_error ran
  | some object =>
      rw [found] at ran
      exact ask_ok ran

theorem create_container_acts (properties : ContainerProperties) :
    (createContainer ⟨.memory account location, name⟩ properties).ActsOn account location
      name := by
  let request : Request := createContainer ⟨.memory account location, name⟩ properties
  refine ⟨fun found => (.ok found.isNone, some (found.getD (StoredContainer.created properties))),
    fun storage => ?_⟩
  have ran := ContainerHandle.create_on_memory account location name storage properties
  unfold Table.contains at ran
  cases found : storage.container? account location name with
  | none =>
      rw [show (storage.store account location).get? name = none from found] at ran
      have asked : request.ask storage = (.ok true, _) := ask_ok ran
      rw [asked]
      exact ⟨rfl, Storage.rewrites_insert _⟩
  | some stored =>
      rw [show (storage.store account location).get? name = some stored from found] at ran
      have asked : request.ask storage = (.ok false, storage) := ask_ok ran
      rw [asked]
      exact ⟨rfl, Storage.rewrites_nothing found⟩

theorem create_object_acts (body : Body) (properties : ObjectProperties) :
    (createObject ⟨⟨.memory account location, name⟩, path, kind⟩ body properties).ActsOn
      account location name := by
  let container : ContainerHandle := ⟨.memory account location, name⟩
  let request : Request := createObject ⟨container, path, kind⟩ body properties
  cases readable : body.failure? with
  | some cause =>
      refine acts_of_looks (fun _ =>
        .error (.io (ObjectHandle.mk container path kind).canonicalName cause)) fun storage => ?_
      exact ask_error
        (ObjectHandle.create_unreadable_on_memory _ _ _ _ _ _ readable properties)
  | none =>
      refine ⟨fun found =>
        (found.elim (.error (.notFound container.canonicalName)) fun _ => .ok (),
          found.map fun stored => stored.putObject path
            ⟨StoredContainer.storedProperties location kind properties, body.yielded⟩),
        fun storage => ?_⟩
      cases found : storage.container? account location name with
      | none =>
          have asked : request.ask storage =
              (.error (.notFound container.canonicalName), storage) :=
            ask_error
              (ObjectHandle.create_missing_on_memory _ _ _ _ _ _ found readable properties)
          rw [asked]
          exact ⟨rfl, Storage.rewrites_nothing found⟩
      | some stored =>
          have asked : request.ask storage = (.ok (), _) :=
            ask_ok (ObjectHandle.create_on_memory _ _ _ _ _ _ found readable properties)
          rw [asked]
          exact ⟨rfl, Storage.rewrites_insert _⟩

theorem delete_container_acts :
    (delete (.container ⟨.memory account location, name⟩)).ActsOn account location name := by
  refine ⟨fun _ => (.ok (), none), fun storage => ⟨rfl, Storage.rewrites_erase⟩⟩

theorem delete_object_acts :
    (delete (.object ⟨⟨.memory account location, name⟩, path, kind⟩)).ActsOn
      account location name := by
  let request : Request := delete (.object ⟨⟨.memory account location, name⟩, path, kind⟩)
  refine ⟨fun found => (.ok (), found.map (·.removeObject location.isHierarchical path)),
    fun storage => ?_⟩
  have asked : request.ask storage = (.ok (), _) :=
    ask_ok (ObjectHandle.delete_on_memory account location name storage path kind)
  rw [asked]
  refine ⟨rfl, ?_⟩
  cases found : storage.container? account location name with
  | none =>
      rw [show (storage.store account location).get? name = none from found]
      exact Storage.rewrites_nothing found
  | some stored =>
      rw [show (storage.store account location).get? name = some stored from found]
      exact Storage.rewrites_insert _

theorem acts_on_container {request : Request}
    (here : request.resource.serviceHandle = .memory account location)
    (isContainer : containerName? request.resource = some name) :
    request.ActsOn account location name := by
  cases request with
  | createContainer handle properties =>
      obtain ⟨_, _⟩ := handle
      cases here
      cases isContainer
      exact create_container_acts properties
  | containerIsPresent handle =>
      obtain ⟨_, _⟩ := handle
      cases here
      cases isContainer
      exact container_is_present_acts
  | containerProperties handle =>
      obtain ⟨_, _⟩ := handle
      cases here
      cases isContainer
      exact container_properties_acts
  | createObject handle body properties =>
      obtain ⟨⟨_, _⟩, path, kind⟩ := handle
      cases here
      cases isContainer
      exact create_object_acts body properties
  | objectIsPresent handle =>
      obtain ⟨⟨_, _⟩, path, kind⟩ := handle
      cases here
      cases isContainer
      exact object_is_present_acts
  | objectProperties handle =>
      obtain ⟨⟨_, _⟩, path, kind⟩ := handle
      cases here
      cases isContainer
      exact object_properties_acts
  | download handle =>
      obtain ⟨⟨_, _⟩, path, kind⟩ := handle
      cases here
      cases isContainer
      exact download_acts
  | delete resource =>
      cases resource with
      | service handle => cases isContainer
      | container handle =>
          obtain ⟨_, _⟩ := handle
          cases here
          cases isContainer
          exact delete_container_acts
      | object handle =>
          obtain ⟨⟨_, _⟩, path, kind⟩ := handle
          cases here
          cases isContainer
          exact delete_object_acts

/-- Only a service is in no container, and all that can be asked of it is to delete it. -/
theorem idle_on_service {request : Request} (noContainer : containerName? request.resource = none) :
    ∃ cause, ∀ storage, request.ask storage = (.error cause, storage) := by
  cases request with
  | delete resource =>
      cases resource with
      | service handle => exact ⟨_, fun _ => rfl⟩
      | container handle => cases noContainer
      | object handle => cases noContainer
  | _ => cases noContainer

end Acts

section Confined

variable {inside : String → Prop} {request : Request}
  (confined : request.Confined (.memory account location) inside)
include confined

theorem ask_alike {first second : Storage} (alike : first.Alike account location inside second) :
    (request.ask first).1 = (request.ask second).1 ∧
      (request.ask first).2.Alike account location inside (request.ask second).2 := by
  cases isContainer : containerName? request.resource with
  | none =>
      obtain ⟨cause, idle⟩ := idle_on_service isContainer
      rw [idle first, idle second]
      exact ⟨rfl, alike⟩
  | some name =>
      obtain ⟨act, acts⟩ := acts_on_container confined.service isContainer
      have sameHere := alike name (confined.container name isContainer)
      refine ⟨?_, fun other member => ?_⟩
      · rw [(acts first).1, (acts second).1, sameHere]
      · rw [(acts first).2 other, (acts second).2 other, sameHere, alike other member]

theorem ask_elsewhere {name : String} (elsewhere : ¬ inside name) (storage : Storage) :
    (request.ask storage).2.container? account location name =
      storage.container? account location name := by
  cases isContainer : containerName? request.resource with
  | none =>
      obtain ⟨cause, idle⟩ := idle_on_service isContainer
      rw [idle storage]
  | some here =>
      obtain ⟨act, acts⟩ := acts_on_container confined.service isContainer
      rw [(acts storage).2 name, if_neg]
      intro same
      exact elsewhere (same ▸ confined.container here isContainer)

end Confined

end Request

end StorageScenario
