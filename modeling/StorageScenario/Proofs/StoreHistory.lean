import StorageScenario.Proofs.Outcomes
import StorageScenario.Proofs.MemoryCalls
import StorageScenario.Proofs.PathNormalForm

/-!
Histories of emulated accounts. A history is any list of calls that write to services,
with names and paths as they come, and each call leaves a storage behind whether it
succeeds or fails. Whatever the history, objects are stored at clean paths below the
root folder and the root folder is a folder.
-/

namespace StorageScenario

open ObjectPath Work

inductive StoreCall where
  | createContainer (name : String) (properties : ContainerProperties)
  | deleteContainer (name : String)
  | setContainerProperties (name : String) (properties : ContainerProperties)
  | createObject (name path : String) (kind : EntityKind) (body : Body)
      (properties : ObjectProperties)
  | deleteObject (name path : String) (kind : EntityKind)
  | setObjectProperties (name path : String) (kind : EntityKind) (properties : ObjectProperties)

namespace StoreCall

def run (call : StoreCall) (service : ServiceHandle) : Access Unit :=
  match call with
  | .createContainer name properties => do
      let _ ← (service.container name).create properties
      return ()
  | .deleteContainer name => (service.container name).delete
  | .setContainerProperties name properties => (service.container name).setProperties properties
  | .createObject name path kind body properties =>
      ((service.container name).object path kind).create body properties
  | .deleteObject name path kind => ((service.container name).object path kind).delete
  | .setObjectProperties name path kind properties =>
      ((service.container name).object path kind).setProperties properties

end StoreCall

structure ServiceCall where
  account : Account
  location : Location
  call : StoreCall

namespace Storage

/-- What a call leaves, also if it fails. -/
def next (storage : Storage) (step : ServiceCall) : Storage :=
  left (step.call.run (.memory step.account step.location)) storage

def replay (storage : Storage) (history : List ServiceCall) : Storage :=
  history.foldl next storage

end Storage

namespace StoredContainer

/-- Objects are stored at clean paths below the root folder, which is a folder. -/
structure Sound (container : StoredContainer) : Prop where
  clean : ∀ path ∈ container.objects.keys, clean path = path
  below : "" ∉ container.objects.keys
  root : container.rootProperties.kind = .folder

variable {container : StoredContainer}

theorem created_sound (properties : ContainerProperties) : (created properties).Sound where
  clean _ member := absurd member List.not_mem_nil
  below := List.not_mem_nil
  root := rfl

theorem same_objects_sound (sound : container.Sound) (properties : ContainerProperties) :
    Sound { container with properties := properties } :=
  ⟨sound.clean, sound.below, sound.root⟩

theorem insert_sound (sound : container.Sound) {path : String} (isClean : clean path = path)
    (below : path ≠ "") (object : StoredObject) :
    Sound { container with objects := container.objects.insert path object } where
  clean other member := by
    rcases (Table.mem_keys_insert _ _ _ _).mp member with same | old
    · rw [same, isClean]
    · exact sound.clean other old
  below member := by
    rcases (Table.mem_keys_insert _ _ _ _).mp member with same | old
    · exact below same.symm
    · exact sound.below old
  root := sound.root

theorem put_object_sound (sound : container.Sound) {path : String} (isClean : clean path = path)
    (object : StoredObject) : (container.putObject path object).Sound := by
  unfold putObject
  split
  · exact ⟨sound.clean, sound.below, rfl⟩
  · rename_i below
    exact insert_sound sound isClean below object

theorem set_object_properties_sound (sound : container.Sound) {path : String}
    (isClean : clean path = path) {properties : ObjectProperties} {changed : StoredContainer}
    (set : container.setObjectProperties? path properties = some changed) : changed.Sound := by
  unfold setObjectProperties? at set
  split at set
  · cases set
    exact ⟨sound.clean, sound.below, sound.root⟩
  · rename_i below
    split at set
    · cases set
    · cases set
      exact insert_sound sound isClean below _

theorem fewer_objects_sound (sound : container.Sound) {objects : Table StoredObject}
    (fewer : ∀ path ∈ objects.keys, path ∈ container.objects.keys) :
    Sound { container with objects := objects } where
  clean path member := sound.clean path (fewer path member)
  below member := sound.below (fewer "" member)
  root := sound.root

theorem remove_object_sound (sound : container.Sound) (hierarchical : Bool) (path : String) :
    (container.removeObject hierarchical path).Sound := by
  have erased : ∀ other ∈ (container.objects.erase path).keys,
      other ∈ container.objects.keys :=
    fun other => Table.mem_keys_filter _ _ other
  have either : ∀ recursive : Bool,
      (if recursive then
        { container with
          objects := (container.objects.erase path).filter fun key _ =>
            !Text.startsWith key (ObjectPath.below path) }
      else { container with objects := container.objects.erase path } :
        StoredContainer).Sound := by
    intro recursive
    cases recursive with
    | false => exact fewer_objects_sound sound erased
    | true =>
        apply fewer_objects_sound sound
        intro other member
        exact erased other (Table.mem_keys_filter _ _ other member)
  unfold removeObject
  split
  · exact sound
  · exact either _

end StoredContainer

namespace Storage

def Sound (storage : Storage) : Prop :=
  ∀ account location name stored,
    (storage.store account location).get? name = some stored → stored.Sound

theorem fresh_sound (disk : FileTree) : (fresh disk).Sound := by
  intro account location name stored found
  cases found

theorem set_store_sound {storage : Storage} (sound : storage.Sound) (account : Account)
    (location : Location) {store : ServiceStore}
    (each : ∀ name stored, store.get? name = some stored → stored.Sound) :
    (storage.setStore account location store).Sound := by
  intro other place name stored found
  rw [store_after_set_store] at found
  split at found
  · exact each name stored found
  · exact sound other place name stored found

end Storage

namespace StoredResources

variable {account : Account} {location : Location} {name : String} {α : Type}

theorem read_store_keeps {next : ServiceStore → Access α}
    (each : ∀ store : ServiceStore,
      (∀ name stored, store.get? name = some stored → stored.Sound) →
        Keeps Storage.Sound (next store)) :
    Keeps Storage.Sound (Access.readStore account location >>= next) :=
  fun storage sound => each _ (sound account location) storage sound

theorem container_keeps {resource : String} {next : StoredContainer → Access α}
    (each : ∀ stored, stored.Sound → Keeps Storage.Sound (next stored)) :
    Keeps Storage.Sound (container account location name resource >>= next) := by
  unfold container
  rw [bind_assoc]
  apply read_store_keeps
  intro store sound
  cases found : store.get? name with
  | none => exact fun _ start => start
  | some stored => exact each stored (sound name stored found)

theorem put_container_keeps {stored : StoredContainer} (sound : stored.Sound) :
    Keeps Storage.Sound (putContainer account location name stored) := by
  intro storage start
  apply Storage.set_store_sound start
  intro other held found
  rw [Table.get?_insert] at found
  split at found
  · cases found
    exact sound
  · exact start account location other held found

theorem create_container_keeps (properties : ContainerProperties) :
    Keeps Storage.Sound (createContainer account location name properties) := by
  unfold createContainer containerIsPresent
  rw [bind_assoc]
  apply read_store_keeps
  intro store _
  rw [pure_bind]
  cases store.contains name with
  | true => exact pure_keeps false
  | false =>
      exact bind_keeps (put_container_keeps (StoredContainer.created_sound properties))
        fun _ => pure_keeps true

theorem delete_container_keeps :
    Keeps Storage.Sound (deleteContainer account location name) := by
  intro storage start
  apply Storage.set_store_sound start
  intro other held found
  rw [Table.get?_erase] at found
  split at found
  · cases found
  · exact start account location other held found

variable {object : ObjectHandle} (isClean : clean object.path = object.path)
include isClean

theorem create_object_keeps (body : Body) (properties : ObjectProperties) :
    Keeps Storage.Sound (createObject account location object body properties) := by
  unfold createObject
  cases body.contents with
  | error cause => exact fun _ start => start
  | ok data =>
      apply container_keeps
      intro stored sound
      exact put_container_keeps (StoredContainer.put_object_sound sound isClean _)

theorem set_object_properties_keeps (properties : ObjectProperties) :
    Keeps Storage.Sound (setObjectProperties account location object properties) := by
  unfold setObjectProperties
  apply container_keeps
  intro stored sound
  cases set : stored.setObjectProperties? object.path properties with
  | none => exact fun _ start => start
  | some changed =>
      exact put_container_keeps (StoredContainer.set_object_properties_sound sound isClean set)

omit isClean

theorem delete_object_keeps :
    Keeps Storage.Sound (deleteObject account location object) := by
  unfold deleteObject
  apply read_store_keeps
  intro store sound
  cases found : store.get? object.container.name with
  | none => exact pure_keeps ()
  | some stored =>
      exact put_container_keeps
        (StoredContainer.remove_object_sound (sound _ stored found) _ object.path)

end StoredResources

theorem StoreCall.run_keeps (call : StoreCall) (account : Account) (location : Location) :
    Keeps Storage.Sound (call.run (.memory account location)) := by
  have isClean : ∀ name path kind,
      clean ((ContainerHandle.mk (.memory account location) name).object path kind).path =
        ((ContainerHandle.mk (.memory account location) name).object path kind).path :=
    fun _ path _ => clean_join "" path
  cases call with
  | createContainer name properties =>
      exact bind_keeps (StoredResources.create_container_keeps properties) fun _ => pure_keeps ()
  | deleteContainer name => exact StoredResources.delete_container_keeps
  | setContainerProperties name properties =>
      apply StoredResources.container_keeps
      intro stored sound
      exact StoredResources.put_container_keeps
        (StoredContainer.same_objects_sound sound properties)
  | createObject name path kind body properties =>
      exact StoredResources.create_object_keeps (isClean name path kind) body properties
  | deleteObject name path kind => exact StoredResources.delete_object_keeps
  | setObjectProperties name path kind properties =>
      exact StoredResources.set_object_properties_keeps (isClean name path kind) properties

theorem Storage.replay_sound {storage : Storage} (sound : storage.Sound)
    (history : List ServiceCall) : (storage.replay history).Sound := by
  induction history generalizing storage with
  | nil => exact sound
  | cons step rest ih => exact ih (step.call.run_keeps step.account step.location storage sound)

end StorageScenario
