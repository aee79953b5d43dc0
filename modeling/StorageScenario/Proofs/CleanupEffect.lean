import Mathlib.Data.List.Basic
import StorageScenario.Proofs.CleanupAccount
import StorageScenario.Proofs.PathNormalForm

/-!
What cleanup leaves of a creation. If the creation worked in new containers only, the
store is as it was before, even after a creation that failed halfway. In containers
that were there before, objects stay unless they were replaced, or lie in a folder
that was created or below a path that was created more than once.
-/

namespace StorageScenario

namespace Cleanup

open Creation Work

variable {account : Account} {location : Location}

theorem cleanup_removes {inside : String → Prop} {old : ServiceStore} {progress : Progress}
    {between made : Session} (accounted : Accounted account location inside old progress)
    (follows : Follows account location between made progress) :
    ∃ after, cleanup made = .ok () after ∧
      after.storage.store account location =
        progress.created.reverse.foldl (remove location) progress.store ∧
      between.storage.SameElsewhere account location after.storage ∧
      after.context.created = [] := by
  have tracked : made.context.created = progress.created := by rw [follows.context]
  have removable := accounted.removable
  rw [← tracked] at removable
  obtain ⟨after, ran, cleaned⟩ := cleanup_follows made removable
  have store := cleaned.store
  rw [tracked, follows.store] at store
  exact ⟨after, ran, store, Storage.same_elsewhere_trans follows.elsewhere cleaned.elsewhere,
    by rw [cleaned.context]⟩

section Undoing

variable {inside : String → Prop} {old : ServiceStore} {progress : Progress}

theorem removals_restore (accounted : Accounted account location inside old progress)
    (areNew : ∀ name, inside name → old.get? name = none) :
    progress.created.reverse.foldl (remove location) progress.store = old := by
  apply Table.eq_of_get?
  intro name
  by_cases touched : ∃ resource ∈ progress.created, containerName? resource = some name
  · obtain ⟨resource, member, touches⟩ := touched
    have absent := areNew name (accounted.allowed resource member name touches)
    obtain ⟨handle, tracked, same⟩ := accounted.opened resource member name touches absent
    rw [absent, ← same, removals_of_container (List.mem_reverse.mpr tracked)]
  · have apart : ∀ resource ∈ progress.created, containerName? resource ≠ some name :=
      fun resource member touches => touched ⟨resource, member, touches⟩
    have apartReversed : ∀ resource ∈ progress.created.reverse,
        containerName? resource ≠ some name :=
      fun resource member => apart resource (List.mem_reverse.mp member)
    rw [removals_elsewhere apartReversed, accounted.untouched name apart]

end Undoing

/-- Cleanup undoes a creation that makes all the containers it works in, whether the
creation succeeded or failed on the way. -/
theorem cleanup_undoes_create (account : Account) (location : Location)
    (definition : Definition) (session : Session) (untracked : session.context.created = [])
    (areNew : ∀ entry ∈ (definition.lifted session.context.names).containers.entries,
      entry.2.isWanted → (session.storage.store account location).get? entry.1 = none) :
    ∃ after,
      cleanup (left (create (.service (.memory account location)) definition) session) =
        .ok () after ∧
      after.storage.store account location = session.storage.store account location ∧
      session.storage.SameElsewhere account location after.storage ∧
      after.context.created = [] := by
  obtain ⟨between, sameStorage, sameCreated, progress, steps, follows⟩ :=
    create_below_service_reaches account location definition session
  have noneBefore : between.context.created = [] := sameCreated.trans untracked
  have accounted := accounted_steps noneBefore steps
  obtain ⟨after, ran, removed, elsewhere, none⟩ := cleanup_removes accounted follows
  have restored := removals_restore accounted fun name inside => by
    obtain ⟨entry, member, wanted, same⟩ := inside
    change (between.storage.store account location).get? name = _
    rw [sameStorage, ← same]
    exact areNew entry member wanted
  rw [restored] at removed
  rw [sameStorage] at elsewhere
  refine ⟨after, ran, ?_, elsewhere, none⟩
  rw [removed, ← sameStorage]
  rfl

/-- The second of three bodies cannot be read. The container and the first object are
there by then and go away again. -/
theorem cleanup_undoes_create_unreadable_body :
    let account : Account := ⟨0, "account", .hierarchicalNamespace⟩
    let objects : Table ObjectDefinition := Table.ofList
      [("dir/a", {}), ("dir/b", { body := some (.declared 1 [1] (some "torn")) }), ("e", {})]
    let definition : ContainerDefinition := { name := some "c", objects := .flat objects }
    let store : ServiceStore := Table.singleton "other" (StoredContainer.created {})
    let session : Session :=
      ⟨⟨"scenario", {}, .counting "n", [], []⟩,
        (Storage.fresh (.ofDirectories ⟨0⟩ [])).setStore account .blobFs store, []⟩
    let made := left (create (.service (.memory account .blobFs)) (.container definition)) session
    session.context.created = [] ∧
      made.context.created.map Resource.canonicalName =
        ["account/blobfs/c", "account/blobfs/c/dir/a"] ∧
      (made.storage.store account .blobFs).keys = ["c", "other"] ∧
      ∃ after, cleanup made = .ok () after ∧ after.storage.store account .blobFs = store ∧
        after.context.created = [] := by
  intro account objects definition store session made
  have areNew : ∀ entry ∈
      (Definition.lifted (.container definition) session.context.names).containers.entries,
      entry.2.isWanted → (session.storage.store account .blobFs).get? entry.1 = none := by
    intro entry member _
    rw [List.mem_singleton.mp member]
    decide +kernel
  obtain ⟨after, ran, restored, _, none⟩ :=
    cleanup_undoes_create account .blobFs (.container definition) session rfl areNew
  refine ⟨rfl, by decide +kernel, by decide +kernel, after, ran, ?_, none⟩
  rw [restored]
  exact Storage.store_set_store _ _ _ _

section Sparing

variable {name path : String}

/-- What is tracked leaves the path alone: it is not the path of a tracked object and,
in a hierarchical service, everything tracked above it is tracked once and as a file. -/
def Spared (location : Location) (created : List Resource) (name path : String) : Prop :=
  kindsAt created name path = [] ∧
    (location.isHierarchical → ∀ folder, folder ≠ "" →
      Text.startsWith path (ObjectPath.below folder) →
        kindsAt created name folder = [] ∨ kindsAt created name folder = [.file])

/-- The removals that are left leave the path alone: what they remove above it is still
stored as a file, so nothing goes with it. -/
structure Safe (location : Location) (pending : List Resource) (store : ServiceStore)
    (name path : String) : Prop where
  untracked : kindsAt pending name path = []
  above : location.isHierarchical → ∀ folder, folder ≠ "" →
    Text.startsWith path (ObjectPath.below folder) →
      kindsAt pending name folder = [] ∨
        (kindsAt pending name folder = [.file] ∧
          ∃ object, store.objectAt? name folder = some object ∧ object.properties.kind = .file)

theorem remove_keeps_object {resource : Resource} {store : ServiceStore}
    (notContainer : ∀ handle, resource = .container handle → handle.name ≠ name)
    (notIt : kindAt? name path resource = none)
    (outside : ∀ handle, resource = .object handle → handle.container.name = name →
      handle.path ≠ "" → location.isHierarchical →
      Text.startsWith path (ObjectPath.below handle.path) →
        ∃ object, store.objectAt? name handle.path = some object ∧
          object.properties.kind = .file) :
    (remove location store resource).objectAt? name path = store.objectAt? name path := by
  unfold ServiceStore.objectAt? at outside ⊢
  rw [remove_get?]
  split
  next touches =>
    cases found : store.get? name with
    | none => rfl
    | some stored =>
        rw [found] at outside
        cases resource with
        | service handle => cases touches
        | container handle => exact absurd (Option.some.inj touches) (notContainer handle rfl)
        | object handle =>
            have here : handle.container.name = name := Option.some.inj touches
            have elsewhere : path ≠ handle.path := by
              intro same
              simp [kindAt?, here, same] at notIt
            exact stored.remove_object_keeps elsewhere (outside handle rfl here)
  next => rfl

theorem safe_step {head : Resource} {rest : List Resource} {store : ServiceStore}
    (kept : ∀ handle, .container handle ∈ head :: rest → handle.name ≠ name)
    (safe : Safe location (head :: rest) store name path) :
    (remove location store head).objectAt? name path = store.objectAt? name path ∧
      Safe location rest (remove location store head) name path := by
  have notContainer : ∀ handle, head = .container handle → handle.name ≠ name :=
    fun handle same => kept handle (by simp [same])
  have untracked := safe.untracked
  rw [kinds_at_cons, List.append_eq_nil_iff] at untracked
  have notIt : kindAt? name path head = none := by simpa using untracked.1
  -- What is removed now and lies above the path is a file.
  have isFile : ∀ handle, head = .object handle → handle.container.name = name →
      handle.path ≠ "" → location.isHierarchical →
      Text.startsWith path (ObjectPath.below handle.path) →
        ∃ object, store.objectAt? name handle.path = some object ∧
          object.properties.kind = .file := by
    intro handle same here notRoot hierarchical below
    rcases safe.above hierarchical handle.path notRoot below with none | ⟨_, stored⟩
    · rw [kinds_at_cons, same] at none
      simp [kindAt?, here] at none
    · exact stored
  refine ⟨remove_keeps_object notContainer notIt isFile, untracked.2, ?_⟩
  intro hierarchical folder notRoot below
  have above := safe.above hierarchical folder notRoot below
  rw [kinds_at_cons] at above
  cases now : kindAt? name folder head with
  | some kind =>
      left
      rw [now] at above
      rcases above with none | ⟨once, _⟩
      · cases none
      · exact (List.cons.inj once).2
  | none =>
      rw [now] at above
      rcases above with none | ⟨once, object, stored, itsKind⟩
      · exact Or.inl none
      · refine Or.inr ⟨once, object, ?_, itsKind⟩
        rw [remove_keeps_object notContainer now, stored]
        intro handle same here notTop hierarchical folderBelow
        exact isFile handle same here notTop hierarchical
          (ObjectPath.below_trans folderBelow below)

theorem removals_keep_object {resources : List Resource} {store : ServiceStore}
    (kept : ∀ handle, .container handle ∈ resources → handle.name ≠ name)
    (safe : Safe location resources store name path) :
    ServiceStore.objectAt? (resources.foldl (remove location) store) name path =
      store.objectAt? name path := by
  induction resources generalizing store with
  | nil => rfl
  | cons head rest ih =>
      obtain ⟨same, safeRest⟩ := safe_step kept safe
      rw [List.foldl_cons, ih (fun handle member => kept handle (by simp [member])) safeRest, same]

theorem spared_safe {inside : String → Prop} {old : ServiceStore} {progress : Progress}
    (accounted : Accounted account location inside old progress) {stored : StoredContainer}
    (found : old.get? name = some stored) (spared : Spared location progress.created name path) :
    Safe location progress.created.reverse progress.store name path := by
  obtain ⟨now, present, laid⟩ := accounted.overlaid name stored found
  constructor
  · rw [kinds_at_reverse, spared.1]
    rfl
  · intro hierarchical folder notRoot below
    rw [kinds_at_reverse]
    rcases spared.2 hierarchical folder notRoot below with none | once
    · left
      rw [none]
      rfl
    · right
      obtain ⟨object, atFolder, isFile⟩ := laid.latest folder .file notRoot (by rw [once]; rfl)
      rw [once]
      refine ⟨rfl, object, ?_, isFile⟩
      simp [ServiceStore.objectAt?, present, atFolder]

end Sparing

/-- Cleanup never removes a container that the creation found, nor what is stored at a
path that the tracked resources spare. It succeeds and forgets them. -/
theorem cleanup_keeps_spared {base : Resource} (definition : Definition) (session : Session)
    (onMemory : base.serviceHandle = .memory account location)
    (untracked : session.context.created = []) :
    let made := left (create base definition) session
    let old := session.storage.store account location
    ∃ after, cleanup made = .ok () after ∧ after.context.created = [] ∧
      let new := after.storage.store account location
      (∀ name, (old.get? name).isSome → (new.get? name).isSome) ∧
      ∀ name path object, old.objectAt? name path = some object →
        Spared location made.context.created name path →
          new.objectAt? name path = some object := by
  intro made old
  obtain ⟨between, sameStorage, sameCreated, progress, steps, follows⟩ :=
    create_below_any_reaches definition session onMemory
  have accounted := accounted_steps (sameCreated.trans untracked) steps
  obtain ⟨after, ran, removed, _, none⟩ := cleanup_removes accounted follows
  have sameStore : (progressOf account location between).store = old := by
    unfold progressOf
    rw [sameStorage]
  rw [sameStore] at accounted
  have tracked : made.context.created = progress.created := by rw [follows.context]
  have notTracked : ∀ name stored, old.get? name = some stored →
      ∀ handle, .container handle ∈ progress.created.reverse → handle.name ≠ name := by
    intro name stored found handle member same
    have absent := accounted.isNew handle (List.mem_reverse.mp member)
    rw [same, found] at absent
    cases absent
  refine ⟨after, ran, none, ?_, ?_⟩
  · intro name isFound
    obtain ⟨stored, found⟩ := Option.isSome_iff_exists.mp isFound
    obtain ⟨now, present, _⟩ := accounted.overlaid name stored found
    rw [removed]
    apply removals_keep_container (notTracked name stored found)
    rw [present]
    rfl
  · intro name path object isStored spared
    obtain ⟨stored, found, atPath⟩ := Option.bind_eq_some_iff.mp isStored
    obtain ⟨now, present, laid⟩ := accounted.overlaid name stored found
    rw [tracked] at spared
    rw [removed, removals_keep_object (notTracked name stored found)
      (spared_safe accounted found spared)]
    unfold ServiceStore.objectAt?
    rw [present]
    exact (laid.others path spared.1).trans atPath

/-- A file that was created above an object takes nothing with it. -/
theorem cleanup_keeps_spared_below_file :
    let account : Account := ⟨0, "account", .hierarchicalNamespace⟩
    let kept : StoredObject := ⟨{}, [1]⟩
    let stored : StoredContainer := ⟨{}, .folder, Table.singleton "dir/keep" kept⟩
    let base : Resource := .container ⟨.memory account .blobFs, "c"⟩
    let definition : Definition := .object { name := some "dir" }
    let session : Session :=
      ⟨⟨"scenario", {}, .counting "n", [], []⟩,
        (Storage.fresh (.ofDirectories ⟨0⟩ [])).setStore account .blobFs
          (Table.singleton "c" stored), []⟩
    let made := left (create base definition) session
    base.serviceHandle = .memory account .blobFs ∧ session.context.created = [] ∧
      Spared .blobFs made.context.created "c" "dir/keep" ∧
      (made.storage.store account .blobFs).objectAt? "c" "dir" ≠ none ∧
      ∃ after, cleanup made = .ok () after ∧
        (after.storage.store account .blobFs).objectAt? "c" "dir/keep" = some kept := by
  intro account kept stored base definition session made
  have created : made.context.created =
      [.object ⟨⟨.memory account .blobFs, "c"⟩, "dir", .file⟩] := by
    decide +kernel
  have spared : Spared .blobFs made.context.created "c" "dir/keep" := by
    rw [created]
    refine ⟨by decide, fun _ folder _ _ => ?_⟩
    by_cases same : "dir" = folder <;> simp [kindsAt, kindAt?, same]
  have onMemory : base.serviceHandle = .memory account .blobFs := rfl
  obtain ⟨after, ran, _, _, keeps⟩ := cleanup_keeps_spared definition session onMemory rfl
  refine ⟨rfl, rfl, spared, by decide +kernel, after, ran, ?_⟩
  exact keeps "c" "dir/keep" kept (by decide +kernel) spared

/-- A folder that is created where objects lie already takes them with it, though none
of them was created. -/
theorem cleanup_removes_below_folder :
    let account : Account := ⟨0, "account", .hierarchicalNamespace⟩
    let kept : StoredObject := ⟨{}, [1]⟩
    let stored : StoredContainer := ⟨{}, .folder, Table.singleton "dir/keep" kept⟩
    let base : Resource := .container ⟨.memory account .blobFs, "c"⟩
    let definition : Definition :=
      .object { ObjectDefinition.folder with name := some "dir" }
    let session : Session :=
      ⟨⟨"scenario", {}, .counting "n", [], []⟩,
        (Storage.fresh (.ofDirectories ⟨0⟩ [])).setStore account .blobFs
          (Table.singleton "c" stored), []⟩
    let made := left (create base definition) session
    session.context.created = [] ∧
      (session.storage.store account .blobFs).objectAt? "c" "dir/keep" = some kept ∧
      (∃ target, create base definition session = .ok target made) ∧
      made.context.created = [.object ⟨⟨.memory account .blobFs, "c"⟩, "dir", .folder⟩] ∧
      ∃ after, cleanup made = .ok () after ∧
        (after.storage.store account .blobFs).objectAt? "c" "dir/keep" = none := by
  intro account kept stored base definition session made
  have created : made.context.created =
      [.object ⟨⟨.memory account .blobFs, "c"⟩, "dir", .folder⟩] := by
    decide +kernel
  have removable : ∀ resource ∈ made.context.created, Removable account .blobFs resource := by
    rw [created]
    simp [Removable, Resource.serviceHandle, Resource.level]
  obtain ⟨after, ran, _⟩ := cleanup_follows made removable
  refine ⟨rfl, by decide +kernel, ⟨_, rfl⟩, created, after, ran, ?_⟩
  rw [← left_of_ok ran]
  decide +kernel

end Cleanup

end StorageScenario
