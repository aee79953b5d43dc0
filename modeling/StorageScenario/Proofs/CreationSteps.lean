import Mathlib.Logic.Relation
import StorageScenario.Proofs.CreationRun
import StorageScenario.Proofs.LevelAlgebra

/-!
Creation on an emulated account as a sequence of steps, whether it ends well or not.
A step puts a container where there was none or an object into a container that is
there, and tracks it; a call that fails does neither. So the store and the list of
tracked resources agree at every point at which a creation can end.
-/

namespace StorageScenario

namespace StoredContainer

theorem stored_properties_kind (location : Location) (kind : EntityKind)
    (properties : ObjectProperties) :
    (storedProperties location kind properties).kind = kind := by
  unfold storedProperties
  dsimp only
  split <;> rfl

end StoredContainer

/-- Either nothing happens to the store, or the object is put into its container. -/
theorem ObjectHandle.create_on_memory_cases {account : Account} {location : Location}
    {handle : ObjectHandle} (onMemory : handle.container.service = .memory account location)
    (body : Body) (properties : ObjectProperties) (storage : Storage) :
    (∃ cause, handle.create body properties storage = .error cause storage) ∨
      ∃ stored data,
        (storage.store account location).get? handle.container.name = some stored ∧
        handle.create body properties storage =
          .ok () (storage.setStore account location
            ((storage.store account location).insert handle.container.name
              (stored.putObject handle.path
                ⟨StoredContainer.storedProperties location handle.kind properties,
                  data⟩))) := by
  obtain ⟨⟨service, name⟩, path, kind⟩ := handle
  cases onMemory
  cases readable : body.failure? with
  | some cause =>
      exact Or.inl ⟨_, ObjectHandle.create_unreadable_on_memory account location name storage path
        kind readable properties⟩
  | none =>
      cases found : (storage.store account location).get? name with
      | none =>
          exact Or.inl ⟨_,
            ObjectHandle.create_missing_on_memory account location name storage path
            kind found readable properties⟩
      | some stored =>
          right
          exact ⟨stored, body.yielded, rfl, ObjectHandle.create_on_memory account location name
            storage path kind found readable properties⟩

namespace Creation

open Work

/-- One container or one object more. Only containers of the given names are worked in. -/
inductive Step (service : ServiceHandle) (inside : String → Prop) : Progress → Progress → Prop
  | container {progress : Progress} {name : String} (properties : ContainerProperties)
      (allowed : inside name) (isNew : progress.store.get? name = none) :
      Step service inside progress
        ⟨progress.store.insert name (StoredContainer.created properties),
          progress.created ++ [.container ⟨service, name⟩]⟩
  | object {progress : Progress} {name : String} {stored : StoredContainer} (path : String)
      (kind : EntityKind) (object : StoredObject) (allowed : inside name)
      (found : progress.store.get? name = some stored) (sameKind : object.properties.kind = kind) :
      Step service inside progress
        ⟨progress.store.insert name (stored.putObject path object),
          progress.created ++ [.object ⟨⟨service, name⟩, path, kind⟩]⟩

abbrev Steps (service : ServiceHandle) (inside : String → Prop) :
    Progress → Progress → Prop :=
  Relation.ReflTransGen (Step service inside)

def progressOf (account : Account) (location : Location) (session : Session) : Progress :=
  ⟨session.storage.store account location, session.context.created⟩

def Reached (account : Account) (location : Location) (inside : String → Prop)
    (start session : Session) : Prop :=
  ∃ progress,
    Steps (.memory account location) inside (progressOf account location start) progress ∧
      Follows account location start session progress

variable {account : Account} {location : Location} {inside : String → Prop}
  {start before : Session}

theorem follows_same {progress : Progress}
    (follows : Follows account location start before progress) (log : List LogLine) :
    Follows account location start ⟨before.context, before.storage, log⟩ progress :=
  ⟨follows.store, follows.elsewhere, follows.context⟩

theorem follows_next {progress : Progress}
    (follows : Follows account location start before progress) (store : ServiceStore)
    (resource : Resource) (log : List LogLine) :
    Follows account location start
      ⟨before.context.track resource, before.storage.setStore account location store, log⟩
      ⟨store, progress.created ++ [resource]⟩ where
  store := Storage.store_set_store _ _ _ _
  elsewhere := Storage.same_elsewhere_set_store follows.elsewhere _
  context := by rw [follows.context]; rfl

theorem note_reaches (severity : Severity) (text : String) :
    Keeps (Reached account location inside start) (note severity text) := by
  rintro before ⟨progress, steps, follows⟩
  exact ⟨progress, steps, follows_same follows _⟩

theorem object_fails {handle : ObjectHandle} {definition : ObjectDefinition}
    {cause : BackendError} {storage : Storage} (wanted : definition.isWanted)
    (call : handle.create (definition.body.getD (.zeros 0)) definition.properties before.storage =
      .error cause storage) :
    ∃ log, Creation.object (.object handle) (.object definition) before =
      .error (.backend .createObject handle.canonicalName cause)
        ⟨before.context, storage, log⟩ := by
  change ∃ log, (if !definition.isWanted then _ else _ : Work Traversal) before = _
  rw [wanted, if_neg (by simp)]
  obtain ⟨log, noted⟩ := note_yields .debug ("creating " ++ handle.kind.name ++ " " ++
    handle.canonicalName ++ " (" ++ toString (definition.body.getD (.zeros 0)).size ++ " bytes)")
    before
  have failed : access .createObject handle.canonicalName
      (handle.create (definition.body.getD (.zeros 0)) definition.properties)
      ⟨before.context, before.storage, log⟩ =
      .error (.backend .createObject handle.canonicalName cause)
        ⟨before.context, storage, log⟩ := by
    simp only [access, call]
  exact ⟨log, bind_error_iff.mpr
    (Or.inr ⟨(), _, noted, bind_error_iff.mpr (Or.inl failed)⟩)⟩

theorem container_fails {handle : ContainerHandle} {definition : ContainerDefinition}
    {cause : BackendError} {storage : Storage} (wanted : definition.isWanted)
    (call : handle.create definition.properties before.storage = .error cause storage) :
    ∃ log, Creation.container (.container handle) (.container definition) before =
      .error (.backend .createContainer handle.canonicalName cause)
        ⟨before.context, storage, log⟩ := by
  change ∃ log, (if !definition.isWanted then _ else _ : Work Traversal) before = _
  rw [wanted, if_neg (by simp)]
  obtain ⟨log, noted⟩ :=
    note_yields .debug ("creating container " ++ handle.canonicalName) before
  have failed : access .createContainer handle.canonicalName (handle.create definition.properties)
      ⟨before.context, before.storage, log⟩ =
      .error (.backend .createContainer handle.canonicalName cause)
        ⟨before.context, storage, log⟩ := by
    simp only [access, call]
  exact ⟨log, bind_error_iff.mpr
    (Or.inr ⟨(), _, noted, bind_error_iff.mpr (Or.inl failed)⟩)⟩

theorem object_reaches {handle : ObjectHandle} (definition : ObjectDefinition)
    (onMemory : handle.container.service = .memory account location)
    (allowed : inside handle.container.name) :
    Keeps (Reached account location inside start)
      (Creation.object (.object handle) (.object definition)) := by
  rintro before ⟨progress, steps, follows⟩
  cases wanted : definition.isWanted with
  | false =>
      obtain ⟨log, ran⟩ := @object_skips before handle definition wanted
      rw [left_of_ok ran]
      exact ⟨progress, steps, follows_same follows log⟩
  | true =>
      rcases ObjectHandle.create_on_memory_cases onMemory (definition.body.getD (.zeros 0))
          definition.properties before.storage with
        ⟨cause, call⟩ | ⟨stored, data, found, call⟩
      · obtain ⟨log, failed⟩ := object_fails wanted call
        rw [left_of_error failed]
        exact ⟨progress, steps, follows_same follows log⟩
      · obtain ⟨log, ran⟩ := object_yields handle definition wanted call
        rw [left_of_ok ran]
        refine ⟨_, steps.tail ?_, follows_next follows _ _ log⟩
        obtain ⟨⟨service, name⟩, path, kind⟩ := handle
        cases onMemory
        rw [follows.store] at found ⊢
        exact .object path kind _ allowed found
          (StoredContainer.stored_properties_kind location kind definition.properties)

theorem container_reaches (name : String) {definition : ContainerDefinition}
    (wanted : definition.isWanted) (allowed : inside name) :
    Keeps (Reached account location inside start)
      (Creation.container (.container ⟨.memory account location, name⟩)
        (.container definition)) := by
  rintro before ⟨progress, steps, follows⟩
  obtain ⟨between, ran, followsOpen⟩ := container_follows name definition follows wanted
  rw [left_of_ok ran]
  refine ⟨_, ?_, followsOpen⟩
  unfold Progress.openContainer
  split
  next present => exact steps
  next absent =>
    have isNew : progress.store.get? name = none := by simpa [Table.contains] using absent
    exact steps.tail (.container definition.properties allowed isNew)

theorem visit_object_reaches {handle : ObjectHandle} (definition : ObjectDefinition)
    (onMemory : handle.container.service = .memory account location)
    (allowed : inside handle.container.name) :
    Keeps (Reached account location inside start)
      (callbacks.visitObject (.object handle) definition) :=
  visit_keeps (fun _ => object_reaches definition onMemory allowed) (pure_keeps ())

theorem visit_container_reaches (name : String) (definition : ContainerDefinition)
    (allowed : definition.isWanted → inside name) :
    Keeps (Reached account location inside start)
      (callbacks.visitContainer (.container ⟨.memory account location, name⟩) definition) := by
  cases wanted : definition.isWanted with
  | false =>
      rintro before ⟨progress, steps, follows⟩
      obtain ⟨log, skipped⟩ := @container_skips before ⟨.memory account location, name⟩
        definition wanted
      have ran :
          callbacks.visitContainer (.container ⟨.memory account location, name⟩)
            definition before = .ok () ⟨before.context, before.storage, log⟩ :=
        (visit_ok_iff rfl).mpr (Or.inr skipped)
      rw [left_of_ok ran]
      exact ⟨progress, steps, follows_same follows log⟩
  | true =>
      refine visit_keeps (fun _ => container_reaches name wanted (allowed wanted)) ?_
      apply forM_keeps
      intro entry _
      exact visit_object_reaches (entry.2.boundTo entry.1) rfl (allowed wanted)

theorem visit_service_reaches (definition : ServiceDefinition)
    (allowed : ∀ entry ∈ definition.containers.entries, entry.2.isWanted → inside entry.1) :
    Keeps (Reached account location inside start)
      (callbacks.visitService (.service (.memory account location)) definition) := by
  change Keeps _ (definition.containers.entries.forM _)
  apply forM_keeps
  intro entry member
  exact visit_container_reaches entry.1 (entry.2.boundTo entry.1) (allowed entry member)

theorem traverse_reaches {base : Resource} {definition : Definition}
    (onMemory : base.serviceHandle = .memory account location)
    (sameLevel : definition.level = base.level) :
    Keeps (Reached account location (fun _ => True) start)
      (definition.traverse callbacks base) := by
  cases definition <;> cases base <;> try cases sameLevel
  case service.service inner handle =>
    cases onMemory
    exact visit_service_reaches inner fun _ _ _ => trivial
  case container.container inner handle =>
    obtain ⟨_, name⟩ := handle
    cases onMemory
    exact visit_container_reaches name inner fun _ => trivial
  case object.object inner handle => exact visit_object_reaches inner onMemory trivial

/-- Whatever the outcome of a creation, its walk has led there step by step. -/
theorem create_reaches {base target : Resource} {definition lifted bound : Definition}
    {session between : Session} (shallow : base.level ≤ definition.level)
    (ranLift : Definition.liftTimes (definition.level.depth - base.level.depth) definition
      session = .ok lifted between)
    (lowered : Definition.lowerTimes (definition.level.depth - base.level.depth) lifted base =
      .ok (target, bound))
    (walks : Keeps (Reached account location inside between)
      (lifted.traverse callbacks base)) :
    Reached account location inside between (left (create base definition) session) := by
  obtain ⟨opening, closing, same⟩ := create_after_lift shallow ranLift lowered
  have started : Reached account location inside between between :=
    ⟨_, .refl, rfl, Storage.same_elsewhere_refl account location between.storage, rfl⟩
  have kept : Keeps (Reached account location inside between)
      (do
        note .debug opening
        lifted.traverse callbacks base
        note .info closing
        return target : Work Resource) := by
    apply bind_keeps (note_reaches _ _)
    intro _
    apply bind_keeps walks
    intro _
    apply bind_keeps (note_reaches _ _)
    intro _
    exact pure_keeps target
  unfold left
  rw [same]
  exact kept between started

theorem create_below_service_reaches (account : Account) (location : Location)
    (definition : Definition) (session : Session) :
    ∃ between : Session, between.storage = session.storage ∧
      between.context.created = session.context.created ∧
      Reached account location
        (fun name => ∃ entry ∈ (definition.lifted session.context.names).containers.entries,
          entry.2.isWanted ∧ entry.1 = name)
        between (left (create (.service (.memory account location)) definition) session) := by
  obtain ⟨names, log, ranLift⟩ := definition.lift_below_service session
  obtain ⟨bound, lowered⟩ :=
    definition.lower_lifted (.memory account location) session.context.names
  have shallow : (Resource.service (.memory account location)).level ≤ definition.level :=
    Nat.zero_le _
  refine ⟨_, ?_, ?_, create_reaches shallow ranLift lowered (visit_service_reaches _ ?_)⟩
  · rfl
  · rfl
  · exact fun entry member wanted => ⟨entry, member, wanted, rfl⟩

theorem create_below_any_reaches {base : Resource} (definition : Definition) (session : Session)
    (onMemory : base.serviceHandle = .memory account location) :
    ∃ between : Session, between.storage = session.storage ∧
      between.context.created = session.context.created ∧
      Reached account location (fun _ => True) between
        (left (create base definition) session) := by
  by_cases shallow : base.level ≤ definition.level
  · have distance : definition.level.depth =
        base.level.depth + (definition.level.depth - base.level.depth) :=
      (Nat.add_sub_cancel' shallow).symm
    obtain ⟨lifted, target, ⟨log, ranLift⟩, sameLevel, _, _, lowered⟩ :=
      Definition.lift_then_lower _ definition base session distance
    have reached := create_reaches shallow ranLift lowered (traverse_reaches onMemory sameLevel)
    refine ⟨_, ?_, ?_, reached⟩ <;> rfl
  · have deeper : definition.level < base.level := Nat.lt_of_not_le shallow
    have refused : create base definition session =
        .error (.resourceDeeperThanDefinition base.level definition.level) session := by
      unfold create
      rw [if_pos deeper]
      rfl
    rw [left_of_error refused]
    exact ⟨session, rfl, rfl, _, .refl, rfl,
      Storage.same_elsewhere_refl account location session.storage, rfl⟩

end Creation

end StorageScenario
