import StorageScenario.Body.Reader
import StorageScenario.Proofs.Addressing
import StorageScenario.Proofs.CleanupRun
import StorageScenario.Proofs.ValidationReads

/-!
Calls on emulated accounts are atomic and local. A call does all its reading, of the body
and of the store, before its one write, so if it fails it has written nothing. And it writes
to the container that it is about and to nothing else: an object that is created is read
back as it was given, and everything beside it is as before.
-/

namespace StorageScenario

open ObjectPath Work

inductive ContainerCall where
  | isPresent
  | create (properties : ContainerProperties)
  | delete
  | readProperties
  | setProperties (properties : ContainerProperties)
  | list (within : String) (recursive : Bool)

inductive ObjectCall where
  | isPresent
  | create (body : Body) (properties : ObjectProperties)
  | delete
  | readProperties
  | setProperties (properties : ObjectProperties)
  | children (recursive : Bool)
  | download

namespace ContainerCall

def Answer : ContainerCall → Type
  | .isPresent => Bool
  | .create _ => Bool
  | .delete => Unit
  | .readProperties => ContainerProperties
  | .setProperties _ => Unit
  | .list _ _ => Table ObjectProperties

def run (container : ContainerHandle) : (call : ContainerCall) → Access call.Answer
  | .isPresent => container.isPresent
  | .create properties => container.create properties
  | .delete => container.delete
  | .readProperties => container.properties
  | .setProperties properties => container.setProperties properties
  | .list within recursive => container.list within recursive

end ContainerCall

namespace ObjectCall

def Answer : ObjectCall → Type
  | .isPresent => Bool
  | .create _ _ => Unit
  | .delete => Unit
  | .readProperties => ObjectProperties
  | .setProperties _ => Unit
  | .children _ => Table ObjectProperties
  | .download => Except IoError Bytes

def run (object : ObjectHandle) : (call : ObjectCall) → Access call.Answer
  | .isPresent => object.isPresent
  | .create body properties => object.create body properties
  | .delete => object.delete
  | .readProperties => object.properties
  | .setProperties properties => object.setProperties properties
  | .children recursive => object.children recursive
  | .download => object.download

end ObjectCall

namespace Work

variable {ε σ α β : Type}

/-- A call that fails leaves the state as it was. -/
def Atomic (call : EStateM ε σ α) : Prop :=
  ∀ before error after, call before = .error error after → after = before

theorem Looks.atomic {call : EStateM ε σ α} (looks : Looks call) : Atomic call :=
  fun _ _ _ failed => looks.of_error failed

/-- Looking around before an atomic call does not make it less so. -/
theorem bind_atomic {call : EStateM ε σ α} {next : α → EStateM ε σ β} (first : Looks call)
    (rest : ∀ value, Atomic (next value)) : Atomic (call >>= next) := by
  intro before error after failed
  rcases bind_error_iff.mp failed with early | ⟨value, between, ran, late⟩
  · exact first.of_error early
  · rw [rest value between error after late, first.of_ok ran]

theorem atomic_bind_pure {call : EStateM ε σ α} (atomic : Atomic call) (value : β) :
    Atomic (call >>= fun _ => pure value) := by
  intro before error after failed
  rcases bind_error_iff.mp failed with early | ⟨_, _, _, late⟩
  · exact atomic before error after early
  · cases late

theorem left_bind_pure (call : EStateM ε σ α) (value : β) (before : σ) :
    left (call >>= fun _ => pure value) before = left call before := by
  cases ran : call before with
  | ok first after =>
      rw [left_of_ok ran]
      exact left_of_ok (bind_ok_iff.mpr ⟨first, after, ran, rfl⟩)
  | error error after =>
      rw [left_of_error ran]
      exact left_of_error (bind_error_iff.mpr (Or.inl ran))

end Work

namespace StoredResources

variable (account : Account) (location : Location)

theorem put_container_atomic (name : String) (stored : StoredContainer) :
    Atomic (putContainer account location name stored) := by
  refine bind_atomic (read_store_looks account location) fun store => ?_
  intro before error after failed
  cases failed

theorem create_container_atomic (name : String) (properties : ContainerProperties) :
    Atomic (createContainer account location name properties) := by
  have looks : Looks (containerIsPresent account location name) :=
    bind_looks (read_store_looks account location) fun _ => pure_looks _
  refine bind_atomic looks fun present => ?_
  split
  · exact (pure_looks false).atomic
  · exact atomic_bind_pure (put_container_atomic account location name _) true

theorem create_object_atomic (object : ObjectHandle) (body : Body)
    (properties : ObjectProperties) :
    Atomic (createObject account location object body properties) := by
  unfold createObject
  split
  · exact (throw_looks _).atomic
  · refine bind_atomic (container_looks account location _ _) fun stored => ?_
    exact put_container_atomic account location _ _

theorem delete_object_atomic (object : ObjectHandle) :
    Atomic (deleteObject account location object) := by
  refine bind_atomic (read_store_looks account location) fun store => ?_
  split
  · exact (pure_looks ()).atomic
  · exact put_container_atomic account location _ _

theorem set_object_properties_atomic (object : ObjectHandle) (properties : ObjectProperties) :
    Atomic (setObjectProperties account location object properties) := by
  refine bind_atomic (container_looks account location _ _) fun stored => ?_
  split
  · exact put_container_atomic account location _ _
  · exact (throw_looks _).atomic

theorem list_children_looks (object : ObjectHandle) (recursive : Bool) :
    Looks (listChildren account location object recursive) :=
  bind_looks (container_looks account location _ _) fun _ => pure_looks _

end StoredResources

section OneContainer

variable (account : Account) (location : Location) (name : String)

theorem ContainerHandle.list_looks (within : String) (recursive : Bool) :
    Looks ((ContainerHandle.mk (.memory account location) name).list within recursive) :=
  bind_looks (StoredResources.container_looks account location _ _) fun _ => pure_looks _

theorem ContainerCall.run_atomic (call : ContainerCall) :
    Atomic (call.run ⟨.memory account location, name⟩) := by
  let container : ContainerHandle := ⟨.memory account location, name⟩
  cases call with
  | isPresent => exact container.is_present_looks.atomic
  | create properties =>
      exact StoredResources.create_container_atomic account location name properties
  | delete =>
      intro before error after failed
      cases failed
  | readProperties => exact container.properties_looks.atomic
  | setProperties properties =>
      refine bind_atomic (StoredResources.container_looks account location _ _) fun stored => ?_
      exact StoredResources.put_container_atomic account location name _
  | list within recursive =>
      exact (ContainerHandle.list_looks account location name within recursive).atomic

theorem ObjectCall.run_atomic (path : String) (kind : EntityKind) (call : ObjectCall) :
    Atomic (call.run ⟨⟨.memory account location, name⟩, path, kind⟩) := by
  let object : ObjectHandle := ⟨⟨.memory account location, name⟩, path, kind⟩
  cases call with
  | isPresent => exact object.is_present_looks.atomic
  | create body properties =>
      exact StoredResources.create_object_atomic account location object body properties
  | delete => exact StoredResources.delete_object_atomic account location object
  | readProperties => exact object.properties_looks.atomic
  | setProperties properties =>
      exact StoredResources.set_object_properties_atomic account location object properties
  | children recursive =>
      exact (StoredResources.list_children_looks account location object recursive).atomic
  | download => exact object.download_looks.atomic

end OneContainer

namespace Storage

/-- Nothing is changed but for one container. -/
structure SameBeside (account : Account) (location : Location) (name : String)
    (before after : Storage) : Prop where
  elsewhere : before.SameElsewhere account location after
  others : ∀ other, other ≠ name →
    (after.store account location).get? other = (before.store account location).get? other

variable {account : Account} {location : Location} {name : String} {before after : Storage}

theorem same_beside_refl (storage : Storage) : storage.SameBeside account location name storage :=
  ⟨same_elsewhere_refl account location storage, fun _ _ => rfl⟩

theorem Becomes.same_beside {content : Option StoredContainer}
    (becomes : before.Becomes account location name content after) :
    before.SameBeside account location name after where
  elsewhere := becomes.elsewhere
  others other apart := (becomes.here other).trans (if_neg apart)

end Storage

section Local

variable (account : Account) (location : Location) (name : String) (storage : Storage)

theorem StoreCall.run_same_beside (call : StoreCall) :
    storage.SameBeside account location call.container
      (left (call.run (.memory account location)) storage) :=
  (call.run_becomes account location storage).same_beside

theorem Work.Looks.same_beside {α : Type} {call : Access α} (looks : Looks call) :
    storage.SameBeside account location name (left call storage) := by
  rw [looks storage]
  exact Storage.same_beside_refl storage

theorem ContainerCall.run_same_beside (call : ContainerCall) :
    storage.SameBeside account location name
      (left (call.run ⟨.memory account location, name⟩) storage) := by
  let container : ContainerHandle := ⟨.memory account location, name⟩
  have writes := StoreCall.run_same_beside account location storage
  cases call with
  | isPresent => exact container.is_present_looks.same_beside account location name storage
  | create properties =>
      have dropped := left_bind_pure (container.create properties) () storage
      exact dropped ▸ writes (.createContainer name properties)
  | delete => exact writes (.deleteContainer name)
  | readProperties => exact container.properties_looks.same_beside account location name storage
  | setProperties properties => exact writes (.setContainerProperties name properties)
  | list within recursive =>
      exact (ContainerHandle.list_looks account location name within recursive).same_beside
        account location name storage

theorem ObjectCall.run_same_beside (path : String) (kind : EntityKind) (call : ObjectCall) :
    storage.SameBeside account location name
      (left (call.run ((ContainerHandle.mk (.memory account location) name).object path kind))
        storage) := by
  let object := (ContainerHandle.mk (.memory account location) name).object path kind
  have writes := StoreCall.run_same_beside account location storage
  cases call with
  | isPresent => exact object.is_present_looks.same_beside account location name storage
  | create body properties => exact writes (.createObject name path kind body properties)
  | delete => exact writes (.deleteObject name path kind)
  | readProperties => exact object.properties_looks.same_beside account location name storage
  | setProperties properties => exact writes (.setObjectProperties name path kind properties)
  | children recursive =>
      exact (StoredResources.list_children_looks account location object recursive).same_beside
        account location name storage
  | download => exact object.download_looks.same_beside account location name storage

end Local

theorem Body.reader_rest (body : Body) : body.reader.rest.1 = body.contents := by
  have all : body.reader.upcoming (body.extent - (0 : UInt64).toNat) = body.yielded := by
    cases body with
    | buffered bytes => exact List.take_length
    | zeros size =>
        have whole : Reader.remaining size 0 = size := by simp [Reader.remaining]
        change List.replicate (min (size.toNat - 0) (Reader.remaining size 0).toNat) 0 = _
        rw [whole, Nat.sub_zero, Nat.min_self]
        rfl
    | declared size bytes failure => exact List.take_length
  unfold Reader.rest Body.contents
  dsimp only [Body.reader] at all ⊢
  rw [all]
  cases body.failure? <;> rfl

def BlobType.ofObject (location : Location) (kind : EntityKind) (declared : Option BlobType) :
    Option BlobType :=
  if (location = .blob ∨ location = .blobFs) ∧ kind = .file then
    some (declared.getD .blockBlob)
  else declared

theorem StoredContainer.stored_properties_eq (location : Location) (kind : EntityKind)
    (properties : ObjectProperties) :
    storedProperties location kind properties =
      { properties with
        kind := kind
        blob := { properties.blob with
          blobType := BlobType.ofObject location kind properties.blob.blobType } } := by
  unfold storedProperties BlobType.ofObject
  dsimp only
  by_cases typed : (location = .blob ∨ location = .blobFs) ∧ kind = .file
  · cases declared : properties.blob.blobType with
    | none =>
        rw [if_pos ⟨typed.1, typed.2, rfl⟩, if_pos typed]
        rfl
    | some blobType =>
        rw [if_neg fun untyped => Option.some_ne_none blobType untyped.2.2, if_pos typed,
          Option.getD_some, ← declared]
  · rw [if_neg fun untyped => typed ⟨untyped.1, untyped.2.1⟩, if_neg typed]

section Creating

variable {account : Account} {location : Location} {name path : String} {kind : EntityKind}
  {body : Body} {properties : ObjectProperties} {before after : Storage}

theorem ObjectHandle.create_ok_iff :
    (ObjectHandle.mk ⟨.memory account location, name⟩ path kind).create body properties before =
        .ok () after ↔
      body.failure? = none ∧ ∃ stored,
        (before.store account location).get? name = some stored ∧
        before.setStore account location ((before.store account location).insert name
          (stored.putObject path
            ⟨StoredContainer.storedProperties location kind properties, body.yielded⟩)) =
          after := by
  cases readable : body.failure? with
  | some cause =>
      have failed := create_unreadable_on_memory account location name before path kind readable
        properties
      simp [failed]
  | none =>
      cases found : (before.store account location).get? name with
      | none =>
          have failed := create_missing_on_memory account location name before path kind found
            readable properties
          simp [failed]
      | some stored =>
          have ran := create_on_memory account location name before path kind found readable
            properties
          simp [ran]

theorem ObjectHandle.creatable_iff :
    (∃ after,
        (ObjectHandle.mk ⟨.memory account location, name⟩ path kind).create body properties
          before = .ok () after) ↔
      body.failure? = none ∧
        (ContainerHandle.mk (.memory account location) name).isPresent before =
          .ok true before := by
  have there : (ContainerHandle.mk (.memory account location) name).isPresent before =
      .ok true before ↔
        ∃ stored, (before.store account location).get? name = some stored := by
    rw [ContainerHandle.is_present_on_memory, Table.contains, ← Option.isSome_iff_exists]
    simp
  rw [there]
  constructor
  · rintro ⟨after, ran⟩
    obtain ⟨readable, stored, found, _⟩ := create_ok_iff.mp ran
    exact ⟨readable, stored, found⟩
  · rintro ⟨readable, stored, found⟩
    exact ⟨_, create_ok_iff.mpr ⟨readable, stored, found, rfl⟩⟩

/-- An object below the root folder is an entry of its container, and the only one that is
written. -/
theorem ObjectHandle.created_entry (below : path ≠ "")
    (ran : (ObjectHandle.mk ⟨.memory account location, name⟩ path kind).create body properties
      before = .ok () after) :
    body.failure? = none ∧ ∃ stored,
      (before.store account location).get? name = some stored ∧
      (after.store account location).get? name = some { stored with
        objects := stored.objects.insert path
          ⟨StoredContainer.storedProperties location kind properties, body.yielded⟩ } := by
  obtain ⟨readable, stored, found, rfl⟩ := create_ok_iff.mp ran
  refine ⟨readable, stored, found, ?_⟩
  rw [Storage.store_set_store, Table.get?_insert, if_pos rfl, StoredContainer.putObject,
    if_neg below]

end Creating

/-- Whatever is asked of a container or an object of an account, if it fails nothing has
changed, and in any case nothing has changed but for that container. An object is created if
its body can be read and its container is there. Unless it is the root folder, its bytes and
its properties are read back then, with the kind of the handle and the blob type filled in for
files, and the other objects, the root folder and the container itself are as before. -/
theorem calls_are_atomic (storage : Storage) (account : Account) (location : Location)
    (name path : String) (kind : EntityKind) :
    let container : ContainerHandle := ⟨.memory account location, name⟩
    let object := container.object path kind
    (∀ call : ContainerCall,
      (∀ cause after, call.run container storage = .error cause after → after = storage) ∧
        storage.SameBeside account location name (left (call.run container) storage)) ∧
    (∀ call : ObjectCall,
      (∀ cause after, call.run object storage = .error cause after → after = storage) ∧
        storage.SameBeside account location name (left (call.run object) storage)) ∧
    ∀ body properties,
      ((∃ after, object.create body properties storage = .ok () after) ↔
        body.failure? = none ∧ container.isPresent storage = .ok true storage) ∧
      ∀ after, clean path ≠ "" → object.create body properties storage = .ok () after →
        ∃ data stored changed,
          body.reader.rest.1 = .ok data ∧ object.download after = .ok (.ok data) after ∧
          object.properties after = .ok { properties with
            kind := kind
            blob := { properties.blob with
              blobType := BlobType.ofObject location kind properties.blob.blobType } } after ∧
          (storage.store account location).get? name = some stored ∧
          (after.store account location).get? name = some changed ∧
          changed.properties = stored.properties ∧
          changed.rootProperties = stored.rootProperties ∧
          ∀ other, other ≠ clean path →
            changed.objects.get? other = stored.objects.get? other := by
  intro container object
  refine ⟨fun call => ⟨?_, call.run_same_beside account location name storage⟩,
    fun call => ⟨?_, call.run_same_beside account location name storage path kind⟩, ?_⟩
  · exact fun cause after => call.run_atomic account location name storage cause after
  · exact fun cause after =>
      call.run_atomic account location name (clean path) kind storage cause after
  intro body properties
  refine ⟨ObjectHandle.creatable_iff, ?_⟩
  intro after below ran
  obtain ⟨readable, stored, found, isChanged⟩ := ObjectHandle.created_entry below ran
  let made : StoredObject :=
    ⟨StoredContainer.storedProperties location kind properties, body.yielded⟩
  have held : (stored.objects.insert (clean path) made).get? (clean path) = some made := by
    rw [Table.get?_insert, if_pos rfl]
  refine ⟨body.yielded, stored, _, ?_, ?_, ?_, found, isChanged, rfl, rfl, ?_⟩
  · rw [Body.reader_rest, Body.contents, readable]
  · have read := ObjectHandle.download_on_memory account location name after (clean path) kind
    rw [isChanged, Option.bind_some, held] at read
    exact read
  · rw [← StoredContainer.stored_properties_eq]
    apply (ObjectHandle.properties_ok_iff isChanged (clean path) kind _).mpr
    rw [StoredContainer.object_properties_below _ below, held]
    rfl
  · intro other apart
    rw [Table.get?_insert, if_neg apart]

/-- A body that ends in a failure leaves the old file as it is. A body that can be read
replaces the file, data and properties together, and leaves the file next to it alone. -/
theorem calls_are_atomic_torn_body :
    let account : Account := ⟨0, "account", .hierarchicalNamespace⟩
    let history : List ServiceCall :=
      [⟨account, .blobFs, .createContainer "c" {}⟩,
        ⟨account, .blobFs,
          .createObject "c" "x" .file (.buffered [1]) { metadata := some ∅ }⟩,
        ⟨account, .blobFs, .createObject "c" "y" .file (.buffered [9]) {}⟩]
    let storage := (Storage.fresh (.ofDirectories ⟨0⟩ [])).replay history
    let object := (ContainerHandle.mk (.memory account .blobFs) "c").object "./x" .file
    let torn : Body := .declared 5 [2, 3] (some "torn")
    clean "./x" ≠ "" ∧
      (∃ cause, object.create torn {} storage = .error cause storage) ∧
      ∃ after, object.create (.buffered [4, 5]) {} storage = .ok () after ∧
        object.download after = .ok (.ok [4, 5]) after ∧
        object.properties after = .ok { blob := { blobType := some .blockBlob } } after ∧
        ((after.store account .blobFs).objectAt? "c" "y").map (·.data) = some [9] := by
  intro account history storage object torn
  obtain ⟨_, objectCalls, creates⟩ := calls_are_atomic storage account .blobFs "c" "./x" .file
  have notRoot : clean "./x" ≠ "" := by decide +kernel
  have isThere : (ContainerHandle.mk (.memory account .blobFs) "c").isPresent storage =
      .ok true storage := by
    have held : (storage.store account .blobFs).contains "c" = true := by decide +kernel
    rw [ContainerHandle.is_present_on_memory, held]
  refine ⟨notRoot, ?torn, ?whole⟩
  case torn =>
    cases failed : object.create torn {} storage with
    | ok _ after =>
        obtain ⟨readable, _⟩ := (creates torn {}).1.mp ⟨after, failed⟩
        cases readable
    | error cause after =>
        have same := (objectCalls (.create torn {})).1 cause after failed
        exact ⟨cause, by rw [same]⟩
  case whole =>
    obtain ⟨succeeds, reads⟩ := creates (.buffered [4, 5]) {}
    obtain ⟨after, ran⟩ := succeeds.mpr ⟨rfl, isThere⟩
    obtain ⟨data, stored, changed, given, download, shown, found, isChanged, _, _, others⟩ :=
      reads after notRoot ran
    have isData : data = [4, 5] := Except.ok.inj given.symm
    have beside : "y" ≠ clean "./x" := by decide +kernel
    have wasHeld : ((storage.store account .blobFs).objectAt? "c" "y").map (·.data) =
        some [9] := by
      decide +kernel
    have same : (after.store account .blobFs).objectAt? "c" "y" =
        (storage.store account .blobFs).objectAt? "c" "y" := by
      unfold ServiceStore.objectAt?
      rw [found, isChanged, Option.bind_some, Option.bind_some, others "y" beside]
    refine ⟨after, ran, ?_, ?_, ?_⟩
    · rw [download, isData]
    · exact shown
    · rw [same, wasHeld]

end StorageScenario
