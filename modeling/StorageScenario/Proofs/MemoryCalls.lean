import StorageScenario.Storage.ResourceCalls

/-!
Back-end calls on emulated accounts as equations. Each call reads the store of its
service, and what it writes is that store and nothing else.
-/

namespace StorageScenario

variable (account : Account) (location : Location) (name : String) (storage : Storage)

theorem Access.read_store_bind {α : Type} (next : ServiceStore → Access α) :
    (Access.readStore account location >>= next) storage =
      next (storage.store account location) storage :=
  rfl

theorem StoredResources.container_bind {α : Type} {stored : StoredContainer} (resource : String)
    (found : (storage.store account location).get? name = some stored)
    (next : StoredContainer → Access α) :
    (StoredResources.container account location name resource >>= next) storage =
      next stored storage := by
  have ran : StoredResources.container account location name resource storage =
      .ok stored storage := by
    unfold StoredResources.container
    rw [Access.read_store_bind, found]
    rfl
  simp only [bind, EStateM.bind, ran]

theorem StoredResources.container_bind_missing {α : Type} (resource : String)
    (missing : (storage.store account location).get? name = none)
    (next : StoredContainer → Access α) :
    (StoredResources.container account location name resource >>= next) storage =
      .error (.notFound resource) storage := by
  unfold StoredResources.container
  rw [bind_assoc, Access.read_store_bind, missing]
  rfl

namespace ContainerHandle

theorem list_on_memory {stored : StoredContainer}
    (found : (storage.store account location).get? name = some stored) (within : String)
    (recursive : Bool) :
    (ContainerHandle.mk (.memory account location) name).list within recursive storage =
      .ok (stored.list location.isHierarchical within recursive) storage :=
  StoredResources.container_bind account location name storage _ found _

theorem create_on_memory (properties : ContainerProperties) :
    (ContainerHandle.mk (.memory account location) name).create properties storage =
      if (storage.store account location).contains name then .ok false storage
      else .ok true (storage.setStore account location
        ((storage.store account location).insert name (StoredContainer.created properties))) := by
  change (StoredResources.createContainer account location name properties) storage = _
  unfold StoredResources.createContainer StoredResources.containerIsPresent
  rw [bind_assoc, Access.read_store_bind]
  cases (storage.store account location).contains name <;> rfl

theorem is_present_on_memory :
    (ContainerHandle.mk (.memory account location) name).isPresent storage =
      .ok ((storage.store account location).contains name) storage :=
  rfl

theorem properties_on_memory {stored : StoredContainer}
    (found : (storage.store account location).get? name = some stored) :
    (ContainerHandle.mk (.memory account location) name).properties storage =
      .ok stored.properties storage :=
  StoredResources.container_bind account location name storage _ found _

theorem set_properties_on_memory {stored : StoredContainer}
    (found : (storage.store account location).get? name = some stored)
    (properties : ContainerProperties) :
    (ContainerHandle.mk (.memory account location) name).setProperties properties storage =
      .ok () (storage.setStore account location
        ((storage.store account location).insert name
          { stored with properties := properties })) :=
  StoredResources.container_bind account location name storage _ found _

theorem set_properties_missing_on_memory
    (missing : (storage.store account location).get? name = none)
    (properties : ContainerProperties) :
    (ContainerHandle.mk (.memory account location) name).setProperties properties storage =
      .error (.notFound (ContainerHandle.mk (.memory account location) name).canonicalName)
        storage :=
  StoredResources.container_bind_missing account location name storage _ missing _

end ContainerHandle

namespace ObjectHandle

variable (path : String) (kind : EntityKind)

theorem create_on_memory {stored : StoredContainer} {body : Body}
    (found : (storage.store account location).get? name = some stored)
    (readable : body.failure? = none) (properties : ObjectProperties) :
    (ObjectHandle.mk ⟨.memory account location, name⟩ path kind).create body properties
        storage =
      .ok () (storage.setStore account location
        ((storage.store account location).insert name (stored.putObject path
          ⟨StoredContainer.storedProperties location kind properties, body.yielded⟩))) := by
  have contents : body.contents = .ok body.yielded := by
    simp only [Body.contents, readable]
  change (StoredResources.createObject account location _ body properties) storage = _
  unfold StoredResources.createObject
  rw [contents]
  exact StoredResources.container_bind account location name storage _ found _

theorem create_missing_on_memory {body : Body}
    (missing : (storage.store account location).get? name = none)
    (readable : body.failure? = none) (properties : ObjectProperties) :
    (ObjectHandle.mk ⟨.memory account location, name⟩ path kind).create body properties
        storage =
      .error (.notFound (ContainerHandle.mk (.memory account location) name).canonicalName)
        storage := by
  have contents : body.contents = .ok body.yielded := by
    simp only [Body.contents, readable]
  change (StoredResources.createObject account location _ body properties) storage = _
  unfold StoredResources.createObject
  rw [contents]
  exact StoredResources.container_bind_missing account location name storage _ missing _

/-- The body is read before the store, so the container need not be there. -/
theorem create_unreadable_on_memory {body : Body} {cause : IoError}
    (unreadable : body.failure? = some cause) (properties : ObjectProperties) :
    let handle := ObjectHandle.mk ⟨.memory account location, name⟩ path kind
    handle.create body properties storage = .error (.io handle.canonicalName cause) storage := by
  have contents : body.contents = .error cause := by
    simp only [Body.contents, unreadable]
  intro handle
  change (StoredResources.createObject account location handle body properties) storage = _
  unfold StoredResources.createObject
  rw [contents]
  rfl

theorem delete_on_memory :
    (ObjectHandle.mk ⟨.memory account location, name⟩ path kind).delete storage =
      .ok () (match (storage.store account location).get? name with
        | none => storage
        | some stored => storage.setStore account location
            ((storage.store account location).insert name
              (stored.removeObject location.isHierarchical path))) := by
  change (StoredResources.deleteObject account location _) storage = _
  unfold StoredResources.deleteObject
  rw [Access.read_store_bind]
  cases (storage.store account location).get? name <;> rfl

theorem is_present_on_memory :
    (ObjectHandle.mk ⟨.memory account location, name⟩ path kind).isPresent storage =
      .ok (match (storage.store account location).get? name with
        | none => false
        | some stored => stored.hasObject location.isHierarchical path) storage := by
  change (StoredResources.objectIsPresent account location _) storage = _
  unfold StoredResources.objectIsPresent
  rw [Access.read_store_bind]
  cases (storage.store account location).get? name <;> rfl

theorem properties_on_memory {stored : StoredContainer} {properties : ObjectProperties}
    (found : (storage.store account location).get? name = some stored)
    (held : stored.objectProperties? location.isHierarchical path = some properties) :
    (ObjectHandle.mk ⟨.memory account location, name⟩ path kind).properties storage =
      .ok properties storage := by
  change (StoredResources.objectProperties account location _) storage = _
  unfold StoredResources.objectProperties
  rw [StoredResources.container_bind account location name storage _ found]
  simp only [held]
  rfl

theorem properties_missing_on_memory {stored : StoredContainer}
    (found : (storage.store account location).get? name = some stored)
    (missing : stored.objectProperties? location.isHierarchical path = none) :
    (ObjectHandle.mk ⟨.memory account location, name⟩ path kind).properties storage =
      .error (.notFound
        (ObjectHandle.mk ⟨.memory account location, name⟩ path kind).canonicalName)
        storage := by
  change (StoredResources.objectProperties account location _) storage = _
  unfold StoredResources.objectProperties
  rw [StoredResources.container_bind account location name storage _ found]
  simp only [missing]
  rfl

theorem set_properties_on_memory {stored changed : StoredContainer}
    {properties : ObjectProperties}
    (found : (storage.store account location).get? name = some stored)
    (set : stored.setObjectProperties? path properties = some changed) :
    (ObjectHandle.mk ⟨.memory account location, name⟩ path kind).setProperties properties
        storage =
      .ok () (storage.setStore account location
        ((storage.store account location).insert name changed)) := by
  change (StoredResources.setObjectProperties account location _ properties) storage = _
  unfold StoredResources.setObjectProperties
  rw [StoredResources.container_bind account location name storage _ found]
  simp only [set]
  rfl

theorem set_properties_missing_on_memory {properties : ObjectProperties}
    (nothing : ((storage.store account location).get? name).bind
      (·.setObjectProperties? path properties) = none) :
    (ObjectHandle.mk ⟨.memory account location, name⟩ path kind).setProperties properties
        storage =
      .error (.notFound
        (ObjectHandle.mk ⟨.memory account location, name⟩ path kind).canonicalName)
        storage := by
  change (StoredResources.setObjectProperties account location _ properties) storage = _
  unfold StoredResources.setObjectProperties
  cases found : (storage.store account location).get? name with
  | none => exact StoredResources.container_bind_missing account location name storage _ found _
  | some stored =>
      rw [found, Option.bind_some] at nothing
      rw [StoredResources.container_bind account location name storage _ found]
      simp only [nothing]
      rfl

theorem download_on_memory :
    (ObjectHandle.mk ⟨.memory account location, name⟩ path kind).download storage =
      match ((storage.store account location).get? name).bind (·.objects.get? path) with
      | some object => .ok (.ok object.data) storage
      | none => .error (.notFound
          (ObjectHandle.mk ⟨.memory account location, name⟩ path kind).canonicalName)
          storage := by
  change (StoredResources.download account location _ >>= _) storage = _
  unfold StoredResources.download
  rw [bind_assoc, Access.read_store_bind]
  cases (storage.store account location).get? name with
  | none => rfl
  | some stored =>
      simp only [Option.bind_some]
      cases stored.objects.get? path <;> rfl

end ObjectHandle

end StorageScenario
