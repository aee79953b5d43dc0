import StorageScenario.Creation
import StorageScenario.Proofs.MemoryCalls
import StorageScenario.Proofs.Outcomes

/-!
Creation on an emulated account as a fold. The walk over a definition follows a
pure progress, which consists of the store of the service and of the resources
tracked so far, and it changes nothing else in the session. It succeeds whenever
the bodies of the wanted objects can be read.
-/

namespace StorageScenario

def ObjectDefinition.IsReadable (definition : ObjectDefinition) : Prop :=
  ∀ body, definition.body = some body → body.failure? = none

/-- The bodies that a creation comes to read can be read. -/
def ContainerDefinition.IsReadable (definition : ContainerDefinition) : Prop :=
  definition.isWanted → ∀ entry ∈ definition.objects.flatten.entries,
    entry.2.isWanted → entry.2.IsReadable

def ServiceDefinition.IsReadable (definition : ServiceDefinition) : Prop :=
  ∀ entry ∈ definition.containers.entries, entry.2.IsReadable

namespace Creation

open Work

def storedObject (location : Location) (definition : ObjectDefinition) : StoredObject :=
  ⟨StoredContainer.storedProperties location definition.properties.kind definition.properties,
    (definition.body.getD (.zeros 0)).yielded⟩

def placeObject (location : Location) (stored : StoredContainer)
    (entry : String × ObjectDefinition) : StoredContainer :=
  if entry.2.isWanted then
    stored.putObject (ObjectPath.clean entry.1) (storedObject location entry.2)
  else stored

structure Progress where
  store : ServiceStore
  created : List Resource

namespace Progress

def putObject (location : Location) (container : ContainerHandle) (progress : Progress)
    (entry : String × ObjectDefinition) : Progress :=
  match progress.store.get? container.name, entry.2.isWanted with
  | some stored, true =>
      ⟨progress.store.insert container.name (placeObject location stored entry),
        progress.created ++ [.object (container.object entry.1 entry.2.properties.kind)]⟩
  | _, _ => progress

/-- A container that is there stays as it is and is not tracked. -/
def openContainer (container : ContainerHandle) (progress : Progress)
    (properties : ContainerProperties) : Progress :=
  if progress.store.contains container.name then progress
  else
    ⟨progress.store.insert container.name (StoredContainer.created properties),
      progress.created ++ [.container container]⟩

def putContainer (location : Location) (service : ServiceHandle) (progress : Progress)
    (entry : String × ContainerDefinition) : Progress :=
  if entry.2.isWanted then
    entry.2.objects.flatten.entries.foldl (putObject location (service.container entry.1))
      (progress.openContainer (service.container entry.1) entry.2.properties)
  else progress

end Progress

section Callbacks

variable {before : Session}

theorem container_yields (handle : ContainerHandle) (definition : ContainerDefinition)
    {isNew : Bool} {storage : Storage} (wanted : definition.isWanted)
    (call : handle.create definition.properties before.storage = .ok isNew storage) :
    (Creation.container (.container handle) (.container definition)).Yields before .descend
      (if isNew then before.context.track (.container handle) else before.context) storage := by
  change Yields (if !definition.isWanted then _ else _) _ _ _ _
  rw [wanted, if_neg (by simp)]
  apply bind_yields (note_yields _ _ before)
  intro noted
  refine bind_yields (access_yields call) fun made => ?_
  cases isNew with
  | false => exact bind_yields (note_yields _ _ _) fun _ => pure_yields _ _
  | true => exact bind_yields (track_yields _ _) fun _ => pure_yields _ _

theorem container_skips (handle : ContainerHandle) (definition : ContainerDefinition)
    (unwanted : definition.isWanted = false) :
    (Creation.container (.container handle) (.container definition)).Yields before .skipChildren
      before.context before.storage := by
  change Yields (if !definition.isWanted then _ else _) _ _ _ _
  rw [unwanted, if_pos (by simp)]
  exact bind_yields (note_yields _ _ before) fun _ => pure_yields _ _

theorem object_yields (handle : ObjectHandle) (definition : ObjectDefinition) {storage : Storage}
    (wanted : definition.isWanted)
    (call : handle.create (definition.body.getD (.zeros 0)) definition.properties before.storage =
      .ok () storage) :
    (Creation.object (.object handle) (.object definition)).Yields before .descend
      (before.context.track (.object handle)) storage := by
  change Yields (if !definition.isWanted then _ else _) _ _ _ _
  rw [wanted, if_neg (by simp)]
  apply bind_yields (note_yields _ _ before)
  intro noted
  refine bind_yields (access_yields call) fun made => ?_
  exact bind_yields (track_yields _ _) fun _ => pure_yields _ _

theorem object_skips (handle : ObjectHandle) (definition : ObjectDefinition)
    (unwanted : definition.isWanted = false) :
    (Creation.object (.object handle) (.object definition)).Yields before .skipChildren
      before.context before.storage := by
  change Yields (if !definition.isWanted then _ else _) _ _ _ _
  rw [unwanted, if_pos (by simp)]
  exact bind_yields (note_yields _ _ before) fun _ => pure_yields _ _

end Callbacks

variable {account : Account} {location : Location} {start before : Session}
  {progress : Progress}

/-- The session has come this far, and everything else in it is as it was at the start. -/
structure Follows (account : Account) (location : Location) (start session : Session)
    (progress : Progress) : Prop where
  store : session.storage.store account location = progress.store
  elsewhere : start.storage.SameElsewhere account location session.storage
  context : session.context = { start.context with created := progress.created }

def Holds (progress : Progress) (name : String) : Prop :=
  ∃ stored, progress.store.get? name = some stored

theorem visit_object_follows (entry : String × ObjectDefinition) {name : String}
    (follows : Follows account location start before progress) (holds : Holds progress name)
    (readable : entry.2.isWanted → entry.2.IsReadable) :
    ∃ after,
      callbacks.visitObject
        (.object ((ContainerHandle.mk (.memory account location) name).object entry.1
          entry.2.properties.kind)) (entry.2.boundTo entry.1) before = .ok () after ∧
      Follows account location start after
        (progress.putObject location ⟨.memory account location, name⟩ entry) ∧
      Holds (progress.putObject location ⟨.memory account location, name⟩ entry) name := by
  obtain ⟨stored, found⟩ := holds
  unfold Progress.putObject
  rw [found]
  cases wanted : entry.2.isWanted with
  | false =>
      obtain ⟨log, ran⟩ := object_skips _ (entry.2.boundTo entry.1) wanted
      exact ⟨_, (visit_ok_iff rfl).mpr (Or.inr ran),
        ⟨follows.store, follows.elsewhere, follows.context⟩, stored, found⟩
  | true =>
      have whole : (entry.2.body.getD (.zeros 0)).failure? = none := by
        cases body : entry.2.body with
        | none => rfl
        | some declared => exact readable wanted declared body
      have foundBefore : (before.storage.store account location).get? name = some stored := by
        rw [follows.store, found]
      have call := ObjectHandle.create_on_memory account location name before.storage
        (ObjectPath.clean entry.1) entry.2.properties.kind foundBefore whole entry.2.properties
      obtain ⟨log, ran⟩ := object_yields _ (entry.2.boundTo entry.1) wanted call
      refine ⟨_, (visit_ok_iff rfl).mpr (Or.inl ⟨_, ran, rfl⟩), ⟨?_, ?_, ?_⟩, ?_⟩
      · rw [Storage.store_set_store, follows.store]
        simp only [placeObject, wanted, if_true]
        rfl
      · exact Storage.same_elsewhere_set_store follows.elsewhere _
      · simp only [Context.track, follows.context]
        rfl
      · exact ⟨_, by rw [Table.get?_insert, if_pos rfl]⟩

theorem container_follows (name : String) (definition : ContainerDefinition)
    (follows : Follows account location start before progress) (wanted : definition.isWanted) :
    ∃ between,
      Creation.container (.container ⟨.memory account location, name⟩) (.container definition)
        before = .ok .descend between ∧
      Follows account location start between
        (progress.openContainer ⟨.memory account location, name⟩ definition.properties) := by
  have call := ContainerHandle.create_on_memory account location name before.storage
    definition.properties
  rw [follows.store] at call
  unfold Progress.openContainer
  cases present : progress.store.contains name with
  | true =>
      rw [present, if_pos rfl] at call
      obtain ⟨log, ran⟩ := container_yields _ definition wanted call
      exact ⟨_, ran, follows.store, follows.elsewhere, follows.context⟩
  | false =>
      rw [present, if_neg (by simp)] at call
      obtain ⟨log, ran⟩ := container_yields _ definition wanted call
      refine ⟨_, ran, ?_, Storage.same_elsewhere_set_store follows.elsewhere _, ?_⟩
      · rw [Storage.store_set_store]
        rfl
      · simp only [if_true, Context.track, follows.context]
        rfl

theorem open_container_holds (container : ContainerHandle) (progress : Progress)
    (properties : ContainerProperties) :
    Holds (progress.openContainer container properties) container.name := by
  unfold Progress.openContainer
  split
  next present => exact Option.isSome_iff_exists.mp present
  next absent => exact ⟨_, by rw [Table.get?_insert, if_pos rfl]⟩

theorem visit_container_follows (entry : String × ContainerDefinition)
    (follows : Follows account location start before progress) (readable : entry.2.IsReadable) :
    ∃ after,
      callbacks.visitContainer (.container ⟨.memory account location, entry.1⟩)
        (entry.2.boundTo entry.1) before = .ok () after ∧
      Follows account location start after
        (progress.putContainer location (.memory account location) entry) := by
  unfold Progress.putContainer
  cases wanted : entry.2.isWanted with
  | false =>
      obtain ⟨log, ran⟩ := container_skips _ (entry.2.boundTo entry.1) wanted
      exact ⟨_, (visit_ok_iff rfl).mpr (Or.inr ran),
        follows.store, follows.elsewhere, follows.context⟩
  | true =>
      obtain ⟨between, ran, followsOpen⟩ :=
        container_follows entry.1 (entry.2.boundTo entry.1) follows wanted
      have holds := open_container_holds ⟨.memory account location, entry.1⟩ progress
        entry.2.properties
      obtain ⟨after, ranObjects, followsAfter, _⟩ := forM_follows
        (fun session progress =>
          Follows account location start session progress ∧ Holds progress entry.1)
        entry.2.objects.flatten.entries
        (fun object member before progress together =>
          visit_object_follows object together.1 together.2 (readable wanted object member))
        ⟨followsOpen, holds⟩
      exact ⟨after, (visit_ok_iff rfl).mpr (Or.inl ⟨between, ran, ranObjects⟩),
        followsAfter⟩

theorem visit_service_follows {definition : ServiceDefinition}
    (follows : Follows account location start before progress)
    (readable : definition.IsReadable) :
    ∃ after,
      callbacks.visitService (.service (.memory account location)) definition before =
        .ok () after ∧
      Follows account location start after
        (definition.containers.entries.foldl
          (Progress.putContainer location (.memory account location)) progress) :=
  forM_follows (Follows account location start) definition.containers.entries
    (fun entry member _ _ together =>
      visit_container_follows entry together (readable entry member))
    follows

end Creation

end StorageScenario
