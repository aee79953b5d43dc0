import StorageScenario.Proofs.CleanupRun
import StorageScenario.Proofs.ReadOnlyCalls

/-!
Where a cleanup stops. The first deletion that is refused ends it, and what is tracked behind
that one is forgotten without being asked for. Only a service or something on disk can be
refused, and a refused deletion leaves the emulated accounts as they are. So whatever was
forgotten on one of those is still there, although nothing would have kept it from going.
-/

namespace StorageScenario

open Work

theorem Access.on_disk_stores {α : Type} (explain : IoError → BackendError) (calls : Disk α)
    (before : Storage) : (left (Access.onDisk explain calls) before).stores = before.stores := by
  unfold left Access.onDisk
  cases calls before.disk <;> rfl

namespace DiskResources

theorem delete_container_stores (path : String) (before : Storage) :
    (left (deleteContainer path) before).stores = before.stores := by
  rw [left_of_delete_container]
  exact Access.on_disk_stores _ _ before

theorem delete_object_stores (path : String) (before : Storage) :
    (left (deleteObject path) before).stores = before.stores := by
  rcases left_of_delete_object path before with same | same | same
  · rw [same]
  · rw [same]
    exact Access.on_disk_stores _ _ before
  · rw [same]
    exact Access.on_disk_stores _ _ before

end DiskResources

namespace Resource

variable {resource : Resource} {before after : Storage} {cause : BackendError}

/-- Nothing can refuse to be deleted but a service or what is on disk. -/
theorem delete_refused (refused : resource.delete before = .error cause after) :
    (resource.level = .service ∨ ∃ root, resource.serviceHandle = .disk root) ∧
      after.stores = before.stores := by
  cases resource with
  | service handle =>
      cases refused
      exact ⟨Or.inl rfl, rfl⟩
  | container handle =>
      obtain ⟨service, name⟩ := handle
      cases service with
      | rehearsal location => cases refused
      | memory account location => cases refused
      | disk root =>
          have kept := DiskResources.delete_container_stores
            (ContainerHandle.mk (.disk root) name).uri before
          change (left (Resource.container ⟨.disk root, name⟩).delete before).stores = _ at kept
          rw [left_of_error refused] at kept
          exact ⟨Or.inr ⟨root, rfl⟩, kept⟩
  | object handle =>
      obtain ⟨⟨service, name⟩, path, kind⟩ := handle
      cases service with
      | rehearsal location => cases refused
      | memory account location =>
          cases refused.symm.trans
            (ObjectHandle.delete_on_memory account location name before path kind)
      | disk root =>
          let object : ObjectHandle := ⟨⟨.disk root, name⟩, path, kind⟩
          have kept : (left (Resource.object object).delete before).stores = before.stores := by
            change (left (if object.isRoot then pure ()
              else DiskResources.deleteObject object.uri) before).stores = _
            split
            · rfl
            · exact DiskResources.delete_object_stores object.uri before
          rw [left_of_error refused] at kept
          exact ⟨Or.inr ⟨root, rfl⟩, kept⟩

theorem is_present_of_store {account : Account} {location : Location} {present : Bool}
    (removable : Cleanup.Removable account location resource)
    (same : after.store account location = before.store account location)
    (shown : resource.isPresent before = .ok present before) :
    resource.isPresent after = .ok present after := by
  obtain ⟨onMemory, notService⟩ := removable
  cases resource with
  | service handle => exact absurd rfl notService
  | container handle =>
      obtain ⟨_, name⟩ := handle
      cases onMemory
      change (ContainerHandle.mk (.memory account location) name).isPresent before = _ at shown
      change (ContainerHandle.mk (.memory account location) name).isPresent after = _
      rw [ContainerHandle.is_present_on_memory] at shown ⊢
      rw [same]
      cases shown
      rfl
  | object handle =>
      obtain ⟨⟨_, name⟩, path, kind⟩ := handle
      cases onMemory
      change (ObjectHandle.mk ⟨.memory account location, name⟩ path kind).isPresent before = _
        at shown
      change (ObjectHandle.mk ⟨.memory account location, name⟩ path kind).isPresent after = _
      rw [ObjectHandle.is_present_on_memory] at shown ⊢
      rw [same]
      cases shown
      rfl

end Resource

namespace Cleanup

/-- Deletions in turn: those of `made` succeed, that of `refused` fails, and those of
`forgotten` are never asked for. -/
structure StopsAt (tracked : List Resource) (before : Storage) (made : List Resource)
    (reached : Storage) (refused : Resource) (cause : BackendError) (after : Storage)
    (forgotten : List Resource) : Prop where
  split : tracked = made ++ refused :: forgotten
  ran : made.forM Resource.delete before = .ok () reached
  failed : refused.delete reached = .error cause after

section Stops

variable {tracked made forgotten : List Resource} {before reached after : Storage}
  {refused : Resource} {cause : BackendError}

theorem stops_behind {head : Resource} {first : Storage}
    (ran : head.delete first = .ok () before)
    (stops : StopsAt tracked before made reached refused cause after forgotten) :
    StopsAt (head :: tracked) first (head :: made) reached refused cause after forgotten where
  split := by rw [stops.split, List.cons_append]
  ran := bind_ok_iff.mpr ⟨(), before, ran, stops.ran⟩
  failed := stops.failed

/-- What is left to do once a cleanup has stopped is all that it has forgotten. -/
theorem stops_short (stops : StopsAt tracked before made reached refused cause after forgotten) :
    leftByEach Resource.delete tracked before = leftByEach Resource.delete forgotten after := by
  have begins := left_by_each_of_ok made stops.ran
  have fails := left_of_error stops.failed
  unfold leftByEach at begins ⊢
  rw [stops.split, List.foldl_append, begins, List.foldl_cons, fails]

theorem forgotten_stays {account : Account} {location : Location} {resource : Resource}
    (stops : StopsAt tracked before made reached refused cause after forgotten)
    (removable : Removable account location resource)
    (there : resource.isPresent reached = .ok true reached) :
    resource.isPresent after = .ok true after ∧
      ∃ removed, resource.delete after = .ok () removed := by
  have stores := (Resource.delete_refused stops.failed).2
  have same : after.store account location = reached.store account location := by
    unfold Storage.store
    rw [stores]
  obtain ⟨removed, ran, _⟩ := delete_removes removable after
  exact ⟨Resource.is_present_of_store removable same there, removed, ran⟩

end Stops

theorem delete_fails {resource : Resource} {session : Session} {storage : Storage}
    {cause : BackendError} (refused : resource.delete session.storage = .error cause storage) :
    ∃ log, delete resource session =
      .error (.backend .delete resource.canonicalName cause)
        ⟨session.context, storage, log⟩ := by
  obtain ⟨log, noted⟩ := note_yields .debug ("deleting " ++ resource.canonicalName) session
  have failed : access .delete resource.canonicalName resource.delete
      ⟨session.context, session.storage, log⟩ =
        .error (.backend .delete resource.canonicalName cause)
          ⟨session.context, storage, log⟩ := by
    simp only [access, refused]
  exact ⟨log, bind_error_iff.mpr (Or.inr ⟨(), _, noted, failed⟩)⟩

theorem delete_all_ends (tracked : List Resource) (session : Session) :
    (∃ after, tracked.forM Resource.delete session.storage = .ok () after ∧
      (tracked.forM delete).Yields session () session.context after) ∨
    ∃ made reached refused cause after forgotten log,
      StopsAt tracked session.storage made reached refused cause after forgotten ∧
      tracked.forM delete session =
        .error (.backend .delete refused.canonicalName cause)
          ⟨session.context, after, log⟩ := by
  -- The induction is on what is still tracked.
  induction tracked generalizing session with
  | nil => exact Or.inl ⟨session.storage, rfl, session.log, rfl⟩
  | cons head rest ih =>
      cases call : head.delete session.storage with
      | error cause after =>
          obtain ⟨log, failed⟩ := delete_fails call
          have stopped : (head :: rest).forM delete session = _ :=
            bind_error_iff.mpr (Or.inl failed)
          exact Or.inr ⟨[], _, head, cause, after, rest, log, ⟨rfl, rfl, call⟩, stopped⟩
      | ok value between =>
          obtain ⟨log, ran⟩ := delete_yields call
          rcases ih ⟨session.context, between, log⟩ with ⟨after, ranRest, ends, ranLater⟩ |
            ⟨made, reached, refused, cause, after, forgotten, ends, stops, failed⟩
          · have goesOn : (head :: rest).forM delete session = _ :=
              bind_ok_iff.mpr ⟨(), _, ran, ranLater⟩
            exact Or.inl ⟨after, bind_ok_iff.mpr ⟨(), between, call, ranRest⟩, ends, goesOn⟩
          · have goesOn : (head :: rest).forM delete session = _ :=
              bind_error_iff.mpr (Or.inr ⟨(), _, ran, failed⟩)
            exact Or.inr ⟨_, _, _, _, _, _, ends, stops_behind call stops, goesOn⟩

theorem cleanup_of_nothing {session : Session} (nothing : session.context.created = []) :
    (left cleanup session).storage = session.storage := by
  have ran : cleanup session = (session.context.created.reverse.forM delete)
      { session with context := { session.context with created := [] } } := rfl
  rw [nothing] at ran
  rw [left_of_ok ran]

/-- A cleanup deletes what is tracked, the latest first, until one deletion fails, and tracks
nothing afterwards either way, so that a second one does nothing. It does all that can be done
if no deletion fails. Otherwise what it has forgotten is all that it leaves to do, and what
was still there of that on an emulated account is there afterwards, though its own deletion
would have succeeded. -/
theorem cleanup_stops_at_failure (session : Session) :
    let tracked := session.context.created.reverse
    let after := left cleanup session
    let complete := leftByEach Resource.delete tracked session.storage
    after.context = { session.context with created := [] } ∧
      (left cleanup after).storage = after.storage ∧
      (outcome cleanup session = .ok () ∧ after.storage = complete ∧
          tracked.forM Resource.delete session.storage = .ok () complete ∨
        ∃ made reached refused cause forgotten,
          StopsAt tracked session.storage made reached refused cause after.storage forgotten ∧
          outcome cleanup session =
            .error (.backend .delete refused.canonicalName cause) ∧
          (refused.level = .service ∨ ∃ root, refused.serviceHandle = .disk root) ∧
          complete = leftByEach Resource.delete forgotten after.storage ∧
          ∀ account location, ∀ resource ∈ forgotten, Removable account location resource →
            resource.isPresent reached = .ok true reached →
            resource.isPresent after.storage = .ok true after.storage ∧
              ∃ removed, resource.delete after.storage = .ok () removed) := by
  intro tracked after complete
  let start : Session := { session with context := { session.context with created := [] } }
  have begins : cleanup session = tracked.forM delete start := rfl
  rcases delete_all_ends tracked start with ⟨storage, ran, log, ends⟩ |
    ⟨made, reached, refused, cause, storage, forgotten, log, stops, failed⟩
  · rw [← begins] at ends
    have isAfter : after = _ := left_of_ok ends
    have isComplete : complete = storage := left_by_each_of_ok tracked ran
    rw [isComplete, isAfter]
    exact ⟨rfl, cleanup_of_nothing rfl, Or.inl ⟨outcome_of_ok ends, rfl, ran⟩⟩
  · rw [← begins] at failed
    have isAfter : after = _ := left_of_error failed
    have kind := (Resource.delete_refused stops.failed).1
    rw [isAfter]
    refine ⟨rfl, cleanup_of_nothing rfl,
      Or.inr ⟨made, reached, refused, cause, forgotten, stops,
      outcome_of_error failed, kind, stops_short stops, ?_⟩⟩
    intro account location resource member removable there
    exact forgotten_stays stops removable there

/-- An emulated container is tracked, and then a directory whose place a file has taken. The
cleanup is refused the file and never asks for the container, which could have been deleted. -/
theorem cleanup_stops_at_failure_file_in_the_way :
    let clock : Instant := ⟨0⟩
    let account : Account := ⟨0, "account", .standard⟩
    let first : Resource := .container ⟨.memory account .blob, "a"⟩
    let second : Resource := .container ⟨.disk "/r", "b"⟩
    let tree : FileTree := ⟨.directory 0o755 clock
      [("r", .directory 0o755 clock [("b", .file 0o644 clock [])])], clock⟩
    let session : Session :=
      ⟨⟨"scenario", {}, .counting "n", [], [first, second]⟩,
        (Storage.fresh tree).setStore account .blob
          (Table.singleton "a" (StoredContainer.created {})), []⟩
    let after := left cleanup session
    cleanup.run' session = none ∧ after.context.created = [] ∧
      (left cleanup after).storage = after.storage ∧
      first.isPresent after.storage = .ok true after.storage ∧
      ∃ removed, first.delete after.storage = .ok () removed := by
  intro clock account first second tree session after
  have fails : cleanup.run' session = none := by decide +kernel
  have refusal : second.delete.run' session.storage = none := by decide +kernel
  have refuses : ∀ storage, second.delete session.storage ≠ .ok () storage := by
    intro storage ran
    rw [run'_of_ok ran] at refusal
    cases refusal
  have there : first.isPresent session.storage = .ok true session.storage := by
    have contains : (session.storage.store account .blob).contains "a" = true := by
      decide +kernel
    change (ContainerHandle.mk (.memory account .blob) "a").isPresent session.storage = _
    rw [ContainerHandle.is_present_on_memory, contains]
  obtain ⟨forgets, again, ended⟩ := cleanup_stops_at_failure session
  refine ⟨fails, congrArg (·.created) forgets, again, ?_⟩
  rcases ended with ⟨_, _, ran⟩ | ⟨made, reached, _, _, forgotten, stops, _, _, _, stay⟩
  · obtain ⟨_, between, ranSecond, _⟩ := bind_ok_iff.mp ran
    exact absurd ranSecond (refuses between)
  · have ran := stops.ran
    cases made with
    | nil =>
        cases stops.split
        cases ran
        exact stay account .blob first List.mem_cons_self ⟨rfl, by decide⟩ there
    | cons head rest =>
        obtain ⟨_, between, ranHead, _⟩ := bind_ok_iff.mp ran
        have isSecond : second = head := (List.cons.inj stops.split).1
        rw [← isSecond] at ranHead
        exact absurd ranHead (refuses between)

end Cleanup

end StorageScenario
