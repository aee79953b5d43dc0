import StorageScenario.Cleanup
import StorageScenario.Proofs.CreationRun

/-!
Cleanup on an emulated account as a fold of removals over its store. A container is
removed with everything in it. An object is removed alone, except that in a
hierarchical service everything below it goes too unless a file is stored at its path.
-/

namespace StorageScenario

def ServiceStore.objectAt? (store : ServiceStore) (name path : String) : Option StoredObject :=
  (store.get? name).bind (·.objects.get? path)

namespace StoredContainer

variable (container : StoredContainer) {hierarchical : Bool} {path other : String}

theorem remove_object_keeps (elsewhere : other ≠ path)
    (outside : path ≠ "" → hierarchical → Text.startsWith other (ObjectPath.below path) →
      ∃ object, container.objects.get? path = some object ∧ object.properties.kind = .file) :
    (container.removeObject hierarchical path).objects.get? other =
      container.objects.get? other := by
  have erased : (container.objects.erase path).get? other = container.objects.get? other := by
    rw [Table.get?_erase, if_neg elsewhere]
  have either : ∀ recursive : Bool,
      (recursive → Text.startsWith other (ObjectPath.below path) = false) →
        (if recursive then
          { container with
            objects := (container.objects.erase path).filter fun key _ =>
              !Text.startsWith key (ObjectPath.below path) }
        else { container with objects := container.objects.erase path } :
          StoredContainer).objects.get? other = container.objects.get? other := by
    intro recursive notBelow
    cases recursive with
    | false => exact erased
    | true =>
        have kept : (!Text.startsWith other (ObjectPath.below path)) = true := by
          simp [notBelow]
        rw [if_pos rfl, ← erased]
        exact Table.get?_filter_of_key _
          (fun key => !Text.startsWith key (ObjectPath.below path)) kept
  by_cases atRoot : path = ""
  · simp [removeObject, atRoot]
  · unfold removeObject
    rw [if_neg atRoot]
    apply either
    intro recursive
    obtain ⟨isHierarchical, wasFolder⟩ := Bool.and_eq_true_iff.mp recursive
    apply Bool.eq_false_iff.mpr
    intro below
    obtain ⟨object, found, isFile⟩ := outside atRoot isHierarchical below
    simp [found, isFile] at wasFolder

end StoredContainer

namespace Cleanup

open Creation Work

def containerName? : Resource → Option String
  | .service _ => none
  | .container handle => some handle.name
  | .object handle => some handle.container.name

def removeIn (location : Location) (resource : Resource) (stored : StoredContainer) :
    Option StoredContainer :=
  match resource with
  | .service _ => some stored
  | .container _ => none
  | .object handle => some (stored.removeObject location.isHierarchical handle.path)

def remove (location : Location) (store : ServiceStore) (resource : Resource) : ServiceStore :=
  match resource with
  | .service _ => store
  | .container handle => store.erase handle.name
  | .object handle =>
      match store.get? handle.container.name with
      | none => store
      | some stored =>
          store.insert handle.container.name
            (stored.removeObject location.isHierarchical handle.path)

theorem remove_get? (location : Location) (store : ServiceStore) (resource : Resource)
    (name : String) :
    (remove location store resource).get? name =
      if containerName? resource = some name then
        (store.get? name).bind (removeIn location resource)
      else store.get? name := by
  cases resource with
  | service handle => simp [remove, containerName?]
  | container handle =>
      simp only [remove, containerName?, Table.get?_erase, Option.some.injEq]
      by_cases same : handle.name = name
      · cases store.get? name <;> simp [same, removeIn]
      · simp [same, Ne.symm same]
  | object handle =>
      simp only [remove, containerName?, Option.some.injEq]
      by_cases same : handle.container.name = name
      · subst same
        cases found : store.get? handle.container.name with
        | none => simp [found]
        | some stored => simp [removeIn]
      · cases found : store.get? handle.container.name with
        | none => simp [same]
        | some stored => simp [same, Ne.symm same]

section Removals

variable {location : Location} {name : String}

theorem removals_elsewhere {resources : List Resource}
    (elsewhere : ∀ resource ∈ resources, containerName? resource ≠ some name)
    (store : ServiceStore) :
    (resources.foldl (remove location) store).get? name = store.get? name := by
  induction resources generalizing store with
  | nil => rfl
  | cons head rest ih =>
      have later := ih (fun resource member => elsewhere resource (by simp [member]))
        (remove location store head)
      rw [List.foldl_cons, later, remove_get?, if_neg (elsewhere head (by simp))]

theorem removals_of_missing (resources : List Resource) {store : ServiceStore}
    (missing : store.get? name = none) :
    (resources.foldl (remove location) store).get? name = none := by
  induction resources generalizing store with
  | nil => exact missing
  | cons head rest ih =>
      apply ih
      rw [remove_get?, missing]
      simp

theorem removals_of_container {resources : List Resource} {handle : ContainerHandle}
    (tracked : .container handle ∈ resources) (store : ServiceStore) :
    (resources.foldl (remove location) store).get? handle.name = none := by
  induction resources generalizing store with
  | nil => cases tracked
  | cons head rest ih =>
      rcases List.mem_cons.mp tracked with same | later
      · have erased : (remove location store head).get? handle.name = none := by
          rw [← same]
          simp [remove]
        exact removals_of_missing rest erased
      · exact ih later (remove location store head)

theorem removals_keep_container {resources : List Resource}
    (kept : ∀ handle, .container handle ∈ resources → handle.name ≠ name)
    {store : ServiceStore}
    (found : (store.get? name).isSome) :
    ((resources.foldl (remove location) store).get? name).isSome := by
  induction resources generalizing store with
  | nil => exact found
  | cons head rest ih =>
      apply ih fun handle member => kept handle (by simp [member])
      obtain ⟨stored, here⟩ := Option.isSome_iff_exists.mp found
      rw [remove_get?, here]
      split
      next touched =>
        cases head with
        | service handle => rfl
        | object handle => rfl
        | container handle => exact absurd (Option.some.inj touched) (kept handle (by simp))
      next => rfl

end Removals

section Runs

variable {account : Account} {location : Location} {start before : Session}

/-- What can be deleted from an emulated account: its containers and what is in them. -/
def Removable (account : Account) (location : Location) (resource : Resource) : Prop :=
  resource.serviceHandle = .memory account location ∧ resource.level ≠ .service

theorem delete_removes {resource : Resource} (removable : Removable account location resource)
    (before : Storage) :
    ∃ after, resource.delete before = .ok () after ∧
      after.store account location = remove location (before.store account location) resource ∧
      before.SameElsewhere account location after := by
  obtain ⟨onMemory, notService⟩ := removable
  have unchanged := Storage.same_elsewhere_refl account location before
  cases resource with
  | service handle => exact absurd rfl notService
  | container handle =>
      obtain ⟨_, name⟩ := handle
      cases onMemory
      refine ⟨_, rfl, ?_, Storage.same_elsewhere_set_store unchanged _⟩
      rw [Storage.store_set_store]
      rfl
  | object handle =>
      obtain ⟨⟨_, name⟩, path, kind⟩ := handle
      cases onMemory
      refine ⟨_, ObjectHandle.delete_on_memory account location name before path kind, ?_, ?_⟩
      · cases found : (before.store account location).get? name with
        | none => simp only [remove, found]
        | some stored => simp only [remove, found, Storage.store_set_store]
      · cases (before.store account location).get? name with
        | none => exact unchanged
        | some stored => exact Storage.same_elsewhere_set_store unchanged _

theorem delete_yields {resource : Resource} {session : Session} {storage : Storage}
    (call : resource.delete session.storage = .ok () storage) :
    (delete resource).Yields session () session.context storage :=
  bind_yields (note_yields _ _ session) fun _ => access_yields call

theorem delete_all_yields {resources : List Resource} {session : Session} {after : Storage}
    (ran : resources.forM Resource.delete session.storage = .ok () after) :
    (resources.forM delete).Yields session () session.context after := by
  induction resources generalizing session with
  | nil =>
      cases ran
      exact pure_yields () session
  | cons resource rest ih =>
      obtain ⟨_, between, ranFirst, ranRest⟩ := bind_ok_iff.mp ran
      exact bind_yields (delete_yields ranFirst) fun log => @ih ⟨_, between, log⟩ ranRest

theorem cleanup_yields {session : Session} {after : Storage}
    (ran : session.context.created.reverse.forM Resource.delete session.storage = .ok () after) :
    cleanup.Yields session () { session.context with created := [] } after := by
  let start : Session := { session with context := { session.context with created := [] } }
  have ranFrom : session.context.created.reverse.forM Resource.delete start.storage =
      .ok () after := ran
  exact delete_all_yields ranFrom

theorem delete_follows {created : List Resource} {store : ServiceStore} {resource : Resource}
    (follows : Follows account location start before ⟨store, created⟩)
    (removable : Removable account location resource) :
    ∃ after, delete resource before = .ok () after ∧
      Follows account location start after ⟨remove location store resource, created⟩ := by
  obtain ⟨storage, call, removed, elsewhere⟩ := delete_removes removable before.storage
  obtain ⟨log, ran⟩ := delete_yields call
  rw [follows.store] at removed
  exact ⟨_, ran, removed, Storage.same_elsewhere_trans follows.elsewhere elsewhere,
    follows.context⟩

/-- Cleanup on an emulated account always succeeds, removes what is tracked, the latest
first, and tracks nothing afterwards. -/
theorem cleanup_follows (before : Session)
    (removable : ∀ resource ∈ before.context.created, Removable account location resource) :
    ∃ after, cleanup before = .ok () after ∧
      Follows account location before after
        ⟨before.context.created.reverse.foldl (remove location)
          (before.storage.store account location), []⟩ := by
  have started : Follows account location before
      ⟨{ before.context with created := [] }, before.storage, before.log⟩
      ⟨before.storage.store account location, []⟩ :=
    ⟨rfl, Storage.same_elsewhere_refl account location before.storage, rfl⟩
  have each : ∀ resource ∈ before.context.created.reverse, ∀ current store,
      Follows account location before current ⟨store, []⟩ →
        ∃ after, delete resource current = .ok () after ∧
          Follows account location before after ⟨remove location store resource, []⟩ :=
    fun resource member _ _ follows =>
      delete_follows follows (removable resource (List.mem_reverse.mp member))
  obtain ⟨after, ran, follows⟩ := forM_follows
    (fun session store => Follows account location before session ⟨store, []⟩)
    before.context.created.reverse each started
  exact ⟨after, ran, follows⟩

end Runs

end Cleanup

end StorageScenario
