import StorageScenario.Proofs.CallLocality
import StorageScenario.Proofs.ContainerViews

/-!
Histories seen from one container. What a call makes of the container it is about depends
on what is there and on nothing else, and no other container notices. So a history does to
a container what the calls about it do one after the other.
-/

namespace StorageScenario

open ObjectPath Work

def StoredObject.withProperties (object : StoredObject) (properties : ObjectProperties) :
    StoredObject :=
  { object with properties := { properties with kind := object.properties.kind } }

namespace StoredContainer

variable (container : StoredContainer) (hierarchical : Bool) (path : String)

theorem put_object_get? (object : StoredObject) {other : String} (below : other ≠ "") :
    (container.putObject path object).objects.get? other =
      if path = other then some object else container.objects.get? other := by
  unfold putObject
  by_cases atRoot : path = ""
  · rw [if_pos atRoot, if_neg]
    exact fun same => below (same.symm.trans atRoot)
  · rw [if_neg atRoot, Table.get?_insert]
    simp only [eq_comm]

theorem set_object_properties_get? {path : String} {properties : ObjectProperties}
    {changed : StoredContainer}
    (set : container.setObjectProperties? path properties = some changed) (other : String) :
    changed.objects.get? other = (container.objects.get? other).map fun object =>
      if path ≠ "" ∧ path = other then object.withProperties properties else object := by
  unfold setObjectProperties? at set
  split at set
  · rename_i atRoot
    cases set
    simp [atRoot]
  · rename_i below
    split at set
    · cases set
    · rename_i object held
      cases set
      rw [Table.get?_insert]
      by_cases here : other = path
      · rw [if_pos here, here, held, Option.map_some, if_pos ⟨below, rfl⟩]
        rfl
      · rw [if_neg here]
        simp [Ne.symm here]

theorem remove_object_cases :
    container.removeObject hierarchical path = container ∨
      container.removeObject hierarchical path =
        { container with objects := container.objects.erase path } ∨
      container.removeObject hierarchical path =
        { container with
          objects := (container.objects.erase path).filter fun key _ =>
            !Text.startsWith key (ObjectPath.below path) } := by
  unfold removeObject
  dsimp only
  split
  · exact Or.inl rfl
  · generalize (hierarchical && _) = recursive
    cases recursive with
    | false => exact Or.inr (Or.inl rfl)
    | true => exact Or.inr (Or.inr rfl)

theorem removed_was_there {other : String} {object : StoredObject}
    (held : (container.removeObject hierarchical path).objects.get? other = some object) :
    container.objects.get? other = some object := by
  rw [Table.get?_eq_some_iff] at held ⊢
  obtain same | erased | filtered := container.remove_object_cases hierarchical path
  · rw [same] at held
    exact held
  · rw [erased] at held
    exact (List.mem_filter.mp held).1
  · rw [filtered] at held
    exact (List.mem_filter.mp (List.mem_filter.mp held).1).1

end StoredContainer

namespace StoreCall

def container : StoreCall → String
  | .createContainer name _ => name
  | .deleteContainer name => name
  | .setContainerProperties name _ => name
  | .createObject name _ _ _ _ => name
  | .deleteObject name _ _ => name
  | .setObjectProperties name _ _ _ => name

/-- What a call makes of its container. A call that fails changes nothing. -/
def effect (location : Location) (call : StoreCall) (found : Option StoredContainer) :
    Option StoredContainer :=
  match call with
  | .createContainer _ properties => some (found.getD (.created properties))
  | .deleteContainer _ => none
  | .setContainerProperties _ properties =>
      found.map fun stored => { stored with properties := properties }
  | .createObject _ path kind body properties =>
      if body.failure?.isSome then found
      else found.map fun stored => stored.putObject (clean path)
        ⟨StoredContainer.storedProperties location kind properties, body.yielded⟩
  | .deleteObject _ path _ =>
      found.map fun stored => stored.removeObject location.isHierarchical (clean path)
  | .setObjectProperties _ path _ properties =>
      found.map fun stored => (stored.setObjectProperties? (clean path) properties).getD stored

end StoreCall

namespace Storage

/-- One container has become this, or is gone, and nothing else has changed. -/
structure Becomes (account : Account) (location : Location) (name : String)
    (content : Option StoredContainer) (before after : Storage) : Prop where
  elsewhere : before.SameElsewhere account location after
  here : before.Rewrites account location name content after

variable {account : Account} {location : Location} {storage : Storage} {name : String}

theorem becomes_same {content : Option StoredContainer}
    (here : storage.container? account location name = content) :
    Becomes account location name content storage storage :=
  ⟨same_elsewhere_refl account location storage, rewrites_nothing here⟩

theorem becomes_insert (stored : StoredContainer) :
    Becomes account location name (some stored) storage
      (storage.setStore account location ((storage.store account location).insert name stored)) :=
  ⟨same_elsewhere_set_store (same_elsewhere_refl account location storage) _,
    rewrites_insert stored⟩

theorem becomes_erase :
    Becomes account location name none storage
      (storage.setStore account location ((storage.store account location).erase name)) :=
  ⟨same_elsewhere_set_store (same_elsewhere_refl account location storage) _, rewrites_erase⟩

end Storage

namespace StoreCall

variable {location : Location}

section Effects

variable {name path : String} {kind : EntityKind} {body : Body} {properties : ObjectProperties}
  {found : Option StoredContainer}

theorem effect_of_unreadable {cause : IoError} (unreadable : body.failure? = some cause) :
    (createObject name path kind body properties).effect location found = found :=
  if_pos (Option.isSome_of_eq_some unreadable)

theorem effect_of_readable (readable : body.failure? = none) :
    (createObject name path kind body properties).effect location found =
      found.map fun stored => stored.putObject (clean path)
        ⟨StoredContainer.storedProperties location kind properties, body.yielded⟩ := by
  apply if_neg
  rw [readable]
  exact Bool.false_ne_true

theorem effect_of_refused_set
    (refused : found.bind (·.setObjectProperties? (clean path) properties) = none) :
    (setObjectProperties name path kind properties).effect location found = found := by
  cases found with
  | none => rfl
  | some stored =>
      rw [Option.bind_some] at refused
      rw [effect, Option.map_some, refused, Option.getD_none]

theorem effect_of_set {changed : StoredContainer}
    (set : found.bind (·.setObjectProperties? (clean path) properties) = some changed) :
    (setObjectProperties name path kind properties).effect location found = some changed := by
  obtain ⟨stored, isStored, isChanged⟩ := Option.bind_eq_some_iff.mp set
  rw [isStored, effect, Option.map_some, isChanged, Option.getD_some]

end Effects

def Writes (path : String) : StoreCall → Prop
  | .createObject _ raw _ body _ => clean raw = path ∧ body.failure? = none
  | .setObjectProperties _ raw _ _ => clean raw = path
  | _ => False

/-- Where an object below the root folder comes from after a call: it was there, or it has
just been made, or its properties have just been set. -/
inductive Origin (location : Location) (found : Option StoredContainer) (path : String)
    (object : StoredObject) : StoreCall → Prop
  | kept (call : StoreCall) (idle : ¬ call.Writes path)
      (held : found.bind (·.objects.get? path) = some object) :
      Origin location found path object call
  | made (name raw : String) (kind : EntityKind) (body : Body) (properties : ObjectProperties)
      (here : clean raw = path) (readable : body.failure? = none)
      (isObject : object =
        ⟨StoredContainer.storedProperties location kind properties, body.yielded⟩) :
      Origin location found path object (.createObject name raw kind body properties)
  | set (name raw : String) (kind : EntityKind) (properties : ObjectProperties)
      (old : StoredObject) (here : clean raw = path)
      (held : found.bind (·.objects.get? path) = some old)
      (isObject : object = old.withProperties properties) :
      Origin location found path object (.setObjectProperties name raw kind properties)

theorem origin_of_held {location : Location} {call : StoreCall} {found : Option StoredContainer}
    {path : String} (below : path ≠ "") {object : StoredObject}
    (held : (call.effect location found).bind (·.objects.get? path) = some object) :
    Origin location found path object call := by
  cases call with
  | createContainer name properties =>
      cases found with
      | none => cases held
      | some stored => exact .kept _ id held
  | deleteContainer name => cases held
  | setContainerProperties name properties =>
      cases found with
      | none => cases held
      | some stored => exact .kept _ id held
  | createObject name raw kind body properties =>
      cases readable : body.failure? with
      | some cause =>
          rw [effect_of_unreadable readable] at held
          have idle : ¬ (createObject name raw kind body properties).Writes path := by
            rintro ⟨_, isReadable⟩
            rw [readable] at isReadable
            cases isReadable
          exact .kept _ idle held
      | none =>
          rw [effect_of_readable readable] at held
          cases found with
          | none => cases held
          | some stored =>
              rw [Option.map_some, Option.bind_some, stored.put_object_get? _ _ below] at held
              split at held
              · rename_i here
                exact .made name raw kind body properties here readable (Option.some.inj held).symm
              · rename_i elsewhere
                exact .kept _ (fun writes => elsewhere writes.1) held
  | deleteObject name raw kind =>
      cases found with
      | none => cases held
      | some stored => exact .kept _ id (stored.removed_was_there _ _ held)
  | setObjectProperties name raw kind properties =>
      cases set : found.bind (·.setObjectProperties? (clean raw) properties) with
      | none =>
          rw [effect_of_refused_set set] at held
          obtain ⟨stored, isStored, isHeld⟩ := Option.bind_eq_some_iff.mp held
          have idle : ¬ (setObjectProperties name raw kind properties).Writes path := by
            intro here
            rw [isStored, Option.bind_some, show clean raw = path from here,
              StoredContainer.setObjectProperties?, if_neg below, isHeld] at set
            cases set
          exact .kept _ idle held
      | some changed =>
          obtain ⟨stored, isStored, isChanged⟩ := Option.bind_eq_some_iff.mp set
          rw [effect_of_set set, Option.bind_some,
            stored.set_object_properties_get? isChanged] at held
          obtain ⟨old, isOld, isObject⟩ := Option.map_eq_some_iff.mp held
          rw [isStored]
          by_cases here : clean raw = path
          · rw [if_pos ⟨fun atRoot => below (here.symm.trans atRoot), here⟩] at isObject
            exact .set name raw kind properties old here isOld isObject.symm
          · rw [if_neg fun both => here both.2] at isObject
            exact .kept _ here (isObject ▸ isOld)

theorem becomes_of_each {call : StoreCall} {account : Account} {storage : Storage}
    (each : ∀ found, storage.container? account location call.container = found →
      ∃ after, left (call.run (.memory account location)) storage = after ∧
        storage.Becomes account location call.container (call.effect location found) after) :
    storage.Becomes account location call.container
      (call.effect location (storage.container? account location call.container))
      (left (call.run (.memory account location)) storage) := by
  obtain ⟨after, ends, becomes⟩ := each _ rfl
  rw [ends]
  exact becomes

theorem run_becomes (call : StoreCall) (account : Account) (location : Location)
    (storage : Storage) :
    storage.Becomes account location call.container
      (call.effect location (storage.container? account location call.container))
      (left (call.run (.memory account location)) storage) := by
  apply becomes_of_each
  intro found here
  cases call with
  | createContainer name properties =>
      have ran := ContainerHandle.create_on_memory account location name storage properties
      rw [Table.contains, show (storage.store account location).get? name = found from here] at ran
      cases found with
      | none =>
          exact ⟨_, left_of_ok (bind_ok_iff.mpr ⟨true, _, ran, rfl⟩),
            Storage.becomes_insert _⟩
      | some stored =>
          exact ⟨_, left_of_ok (bind_ok_iff.mpr ⟨false, _, ran, rfl⟩),
            Storage.becomes_same here⟩
  | deleteContainer name => exact ⟨_, rfl, Storage.becomes_erase⟩
  | setContainerProperties name properties =>
      cases found with
      | none =>
          have failed := ContainerHandle.set_properties_missing_on_memory account location name
            storage here properties
          exact ⟨_, left_of_error failed, Storage.becomes_same here⟩
      | some stored =>
          have ran := ContainerHandle.set_properties_on_memory account location name storage here
            properties
          exact ⟨_, left_of_ok ran, Storage.becomes_insert _⟩
  | createObject name path kind body properties =>
      cases readable : body.failure? with
      | some cause =>
          have failed := ObjectHandle.create_unreadable_on_memory account location name storage
            (clean path) kind readable properties
          rw [effect_of_unreadable readable]
          exact ⟨_, left_of_error failed, Storage.becomes_same here⟩
      | none =>
          rw [effect_of_readable readable]
          cases found with
          | none =>
              have failed := ObjectHandle.create_missing_on_memory account location name storage
                (clean path) kind here readable properties
              exact ⟨_, left_of_error failed, Storage.becomes_same here⟩
          | some stored =>
              have ran := ObjectHandle.create_on_memory account location name storage
                (clean path) kind here readable properties
              exact ⟨_, left_of_ok ran, Storage.becomes_insert _⟩
  | deleteObject name path kind =>
      have ran := ObjectHandle.delete_on_memory account location name storage (clean path) kind
      rw [show (storage.store account location).get? name = found from here] at ran
      cases found with
      | none => exact ⟨_, left_of_ok ran, Storage.becomes_same here⟩
      | some stored => exact ⟨_, left_of_ok ran, Storage.becomes_insert _⟩
  | setObjectProperties name path kind properties =>
      -- Refused in a missing container and where nothing is stored, in the same way.
      cases set : found.bind (·.setObjectProperties? (clean path) properties) with
      | none =>
          have nothing : ((storage.store account location).get? name).bind
              (·.setObjectProperties? (clean path) properties) = none := by
            rw [show (storage.store account location).get? name = found from here, set]
          have failed := ObjectHandle.set_properties_missing_on_memory account location name
            storage (clean path) kind nothing
          rw [effect_of_refused_set set]
          exact ⟨_, left_of_error failed, Storage.becomes_same here⟩
      | some changed =>
          obtain ⟨stored, isStored, isChanged⟩ := Option.bind_eq_some_iff.mp set
          have ran := ObjectHandle.set_properties_on_memory account location name storage
            (clean path) kind (here.trans isStored) isChanged
          rw [effect_of_set set]
          exact ⟨_, left_of_ok ran, Storage.becomes_insert _⟩

end StoreCall

/-- Whether a step is about this container. Accounts are told apart by their numbers. -/
def ServiceCall.IsAbout (account : Account) (location : Location) (name : String)
    (step : ServiceCall) : Prop :=
  (account.id, location) = (step.account.id, step.location) ∧ name = step.call.container

instance (account : Account) (location : Location) (name : String) (step : ServiceCall) :
    Decidable (step.IsAbout account location name) :=
  inferInstanceAs (Decidable (_ ∧ _))

namespace Storage

variable (account : Account) (location : Location) (name : String)

theorem next_container? (storage : Storage) (step : ServiceCall) :
    (storage.next step).container? account location name =
      if step.IsAbout account location name then
        step.call.effect location (storage.container? account location name)
      else storage.container? account location name := by
  obtain ⟨elsewhere, here⟩ := step.call.run_becomes step.account step.location storage
  change (left (step.call.run (.memory step.account step.location)) storage).container? account
    location name = _
  by_cases sameService : (account.id, location) = (step.account.id, step.location)
  · obtain ⟨sameNumber, sameLocation⟩ := Prod.mk.inj sameService
    subst sameLocation
    have asStep : ∀ state : Storage, state.container? account step.location name =
        state.container? step.account step.location name := by
      intro state
      unfold container? store
      rw [sameNumber]
    rw [asStep, asStep, here name]
    by_cases sameName : name = step.call.container
    · rw [if_pos sameName, if_pos ⟨sameService, sameName⟩, sameName]
    · rw [if_neg sameName, if_neg fun about => sameName about.2]
  · rw [if_neg fun about => sameService about.1]
    unfold container? store
    rw [elsewhere.stores _ sameService]

theorem replay_snoc (storage : Storage) (history : List ServiceCall) (step : ServiceCall) :
    storage.replay (history ++ [step]) = (storage.replay history).next step :=
  List.foldl_append

end Storage

theorem ObjectHandle.properties_shown_iff {account : Account} {location : Location}
    {name path : String} {kind : EntityKind} {storage : Storage} {properties : ObjectProperties} :
    (ObjectHandle.mk ⟨.memory account location, name⟩ path kind).properties storage =
        .ok properties storage ↔
      (storage.container? account location name).bind
        (·.objectProperties? location.isHierarchical path) = some properties := by
  cases found : storage.container? account location name with
  | some stored => exact ObjectHandle.properties_ok_iff found path kind properties
  | none =>
      have failed : (ObjectHandle.mk ⟨.memory account location, name⟩ path kind).properties
          storage = .error _ storage :=
        StoredResources.container_bind_missing account location name storage _ found _
      rw [failed]
      simp

namespace ObjectHandle

variable (account : Account) (location : Location) (name path : String) (kind : EntityKind)
  (storage : Storage)

theorem is_present_shown :
    (ObjectHandle.mk ⟨.memory account location, name⟩ path kind).isPresent storage =
      .ok ((storage.container? account location name).bind
        (·.objectProperties? location.isHierarchical path)).isSome storage := by
  rw [is_present_on_memory]
  unfold Storage.container?
  cases (storage.store account location).get? name with
  | none => rfl
  | some stored => rw [Option.bind_some, ← stored.has_object_iff]

theorem properties_not_shown
    (hidden : (storage.container? account location name).bind
      (·.objectProperties? location.isHierarchical path) = none) :
    (ObjectHandle.mk ⟨.memory account location, name⟩ path kind).properties storage =
      .error (.notFound
        (ObjectHandle.mk ⟨.memory account location, name⟩ path kind).canonicalName)
        storage := by
  cases found : storage.container? account location name with
  | none => exact StoredResources.container_bind_missing account location name storage _ found _
  | some stored =>
      rw [found, Option.bind_some] at hidden
      exact properties_missing_on_memory account location name storage path kind found hidden

end ObjectHandle

end StorageScenario
