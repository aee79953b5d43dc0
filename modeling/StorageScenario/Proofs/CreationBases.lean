import StorageScenario.Proofs.CreationCalls
import StorageScenario.Proofs.CreationStop

/-!
One object made from two bases: from the container that it is to stand in, and at the
object itself. Both ways come to one create call, and below the container that is a call
for an object of the kind that the definition declares. At the object it is the object
handle that says what is made, so a definition of another kind is made as the kind of the
handle.
-/

namespace StorageScenario

def ObjectDefinition.ofKind (definition : ObjectDefinition) (kind : EntityKind) :
    ObjectDefinition :=
  { definition with properties := { definition.properties with kind := kind } }

namespace Creation

open Work

theorem make_all_stops {done : List Call} {call : Call} {later : List Call}
    {made : List Resource} {before between after : Storage} {cause : BackendError}
    (ran : makeAll done before = .ok made between)
    (failed : call.run between = .error cause after) :
    makeAll (done ++ call :: later) before = .error cause after := by
  induction done generalizing before made with
  | nil =>
      cases ran
      exact bind_error_iff.mpr (Or.inl failed)
  | cons head rest ih =>
      obtain ⟨_, next, ranHead, ranRest⟩ := bind_ok_iff.mp ran
      obtain ⟨madeRest, _, ranMade, same⟩ := bind_ok_iff.mp ranRest
      cases same
      have stopped := ih ranMade
      exact bind_error_iff.mpr
        (Or.inr ⟨_, next, ranHead, bind_error_iff.mpr (Or.inl stopped)⟩)

theorem left_of_made {call : Call} {rest : List Call} {isNew : Bool} {before between : Storage}
    (ran : call.run before = .ok isNew between) :
    left (makeAll (call :: rest)) before = left (makeAll rest) between := by
  unfold left
  cases ranRest : makeAll rest between with
  | ok made after => rw [make_all_cons ran ranRest]
  | error cause after =>
      have stopped : makeAll (call :: rest) before = .error cause after :=
        bind_error_iff.mpr (Or.inr ⟨_, _, ran, bind_error_iff.mpr (Or.inl ranRest)⟩)
      rw [stopped]

theorem left_of_refused {call : Call} {rest : List Call} {before after : Storage}
    {cause : BackendError} (failed : call.run before = .error cause after) :
    left (makeAll (call :: rest)) before = after :=
  left_of_error (bind_error_iff.mpr (Or.inl failed))

theorem storage_of_performed {α : Type} {calls : List Call} {action : Work α} {value : α}
    {session before : Session} (performed : Performed calls before value (action session)) :
    (left action session).storage = left (makeAll calls) before.storage := by
  unfold left
  cases result : action session with
  | ok ending after =>
      rw [result] at performed
      cases performed with
      | all made _ ran _ => rw [ran]
  | error error after =>
      rw [result] at performed
      cases performed with
      | upTo done call later split made between cause _ ran failed _ =>
          rw [split, make_all_stops ran failed]

section Bases

variable {account : Account} {location : Location}

theorem make_all_in_container {handle : ContainerHandle} {properties : ContainerProperties}
    (rest : List Call) {storage : Storage} (onMemory : handle.service = .memory account location)
    (there : (storage.store account location).contains handle.name) :
    left (makeAll (.container handle properties :: rest)) storage =
      left (makeAll rest) storage := by
  obtain ⟨_, name⟩ := handle
  cases onMemory
  have opened : (Call.container ⟨.memory account location, name⟩ properties).run storage =
      .ok false storage := by
    have ran := ContainerHandle.create_on_memory account location name storage properties
    rw [if_pos there] at ran
    exact ran
  exact left_of_made opened

/-- What is stored is of the kind of the handle, whatever kind the definition declares. -/
theorem make_all_of_kind (container : ContainerHandle) (path name : String) (kind : EntityKind)
    (definition : ObjectDefinition) (onMemory : container.service = .memory account location) :
    makeAll (objectPlan (container.object path kind) ((definition.ofKind kind).boundTo name)) =
      makeAll (objectPlan (container.object path kind) definition) := by
  obtain ⟨_, _⟩ := container
  cases onMemory
  have wanted : ((definition.ofKind kind).boundTo name).isWanted = definition.isWanted := rfl
  unfold objectPlan
  rw [wanted]
  split
  · rfl
  · rfl

theorem create_at_object (handle : ObjectHandle) (definition : ObjectDefinition)
    (session : Session) :
    (left (create (.object handle) (.object definition)) session).storage =
      left (makeAll (objectPlan handle definition)) session.storage := by
  let base : Resource := .object handle
  let wanted : Definition := .object definition
  have ranLift : Definition.liftTimes (wanted.level.depth - base.level.depth) wanted session =
      .ok wanted session := rfl
  have lowered : Definition.lowerTimes (wanted.level.depth - base.level.depth) wanted base =
      .ok (base, wanted) := rfl
  exact storage_of_performed (create_performs (Nat.le_refl _) ranLift rfl lowered)

theorem create_in_container (container : ContainerHandle) (definition : ObjectDefinition)
    {path : String} (named : definition.name = some path) (session : Session) :
    (left (create (.container container) (.object definition)) session).storage =
      left (makeAll (.container container {} ::
        objectPlan (container.object path definition.properties.kind) (definition.boundTo path)))
        session.storage := by
  let base : Resource := .container container
  let wanted : Definition := .object definition
  let wrapper : Definition :=
    .container { objects := .flat (Table.singleton path (definition.boundTo path)) }
  have nested : wanted.level ≠ .service := by simp [wanted, Definition.level]
  have given : (wanted.ownOrNext session.context.names).1 = path := by
    simp [wanted, Definition.ownOrNext, Definition.name?, named]
  have wrapped : wanted.wrap (wanted.ownOrNext session.context.names).1 = .ok wrapper := by
    rw [given]
    rfl
  obtain ⟨log, ran⟩ := Definition.lift_yields nested session wrapped
  have ranLift : Definition.liftTimes (wanted.level.depth - base.level.depth) wanted session =
      .ok wrapper _ := bind_ok_iff.mpr ⟨wrapper, _, ran, rfl⟩
  have lowered : Definition.lowerTimes (wanted.level.depth - base.level.depth) wrapper base =
      .ok (.object (container.object path definition.properties.kind),
        .object (definition.boundTo path)) := rfl
  have planned : plan base wrapper = .container container {} ::
      objectPlan (container.object path definition.properties.kind) (definition.boundTo path) := by
    have isWanted : ({ objects := .flat (Table.singleton path (definition.boundTo path)) } :
        ContainerDefinition).isWanted = true := rfl
    change containerPlan container _ = _
    unfold containerPlan
    rw [if_pos isWanted, Mapping.flatten]
    exact congrArg _ (List.append_nil _)
  have shallow : base.level ≤ wanted.level := Nat.le_succ 1
  have performed := create_performs shallow ranLift rfl lowered
  rw [planned] at performed
  rw [storage_of_performed performed]

theorem create_at_object_shows {name path : String} {kind : EntityKind}
    {definition : ObjectDefinition} {session : Session}
    (there : (session.storage.store account location).contains name)
    (below : ObjectPath.clean path ≠ "") (wanted : definition.isWanted)
    (readable : definition.IsReadable) (reader : EntityKind) :
    let container : ContainerHandle := ⟨.memory account location, name⟩
    let after := (left (create (.object (container.object path kind)) (.object definition))
      session).storage
    ∃ shown, (container.object path reader).properties after = .ok shown after ∧
      shown.kind = kind := by
  intro container after
  obtain ⟨stored, found⟩ := Option.isSome_iff_exists.mp there
  let body := definition.body.getD (.zeros 0)
  let object : StoredObject :=
    ⟨StoredContainer.storedProperties location kind definition.properties, body.yielded⟩
  let filled := stored.putObject (ObjectPath.clean path) object
  have canBeRead : body.failure? = none := by
    have canBeMade := (ObjectDefinition.can_be_made_iff definition).mpr fun _ => readable
    unfold ObjectDefinition.canBeMade at canBeMade
    rw [wanted] at canBeMade
    simpa using canBeMade
  have reached : after = session.storage.setStore account location
      ((session.storage.store account location).insert name filled) := by
    have planned : objectPlan (container.object path kind) definition =
        [.object (container.object path kind) body definition.properties] := if_pos wanted
    have ran : (Call.object (container.object path kind) body definition.properties).run
        session.storage = .ok true _ :=
      bind_ok_iff.mpr ⟨(), _, ObjectHandle.create_on_memory account location name session.storage
        (ObjectPath.clean path) kind found canBeRead definition.properties, rfl⟩
    have made := create_at_object (container.object path kind) definition session
    rw [planned] at made
    exact made.trans (left_of_ok (make_all_cons ran rfl))
  have holds : (after.store account location).get? name = some filled := by
    rw [reached, Storage.store_set_store, Table.get?_insert, if_pos rfl]
  have shows : filled.objectProperties? location.isHierarchical (ObjectPath.clean path) =
      some object.properties := by
    unfold filled StoredContainer.putObject StoredContainer.objectProperties?
    rw [if_neg below, if_neg below, Table.get?_insert, if_pos rfl]
  exact ⟨object.properties, ObjectHandle.properties_on_memory account location name after
    (ObjectPath.clean path) reader holds shows,
    StoredContainer.stored_properties_kind location kind _⟩

end Bases

/-- Made at its handle, an object is what its container would get from the same definition
with the kind of the handle. So both bases agree if the handle is of the kind that the
definition declares, and for an object that is made they agree only then: from the
container it has the kind of the definition and at the handle that of the handle. -/
theorem create_agrees_across_bases (account : Account) (location : Location) (name : String)
    (definition : ObjectDefinition) {path : String} (named : definition.name = some path)
    (below : ObjectPath.clean path ≠ "") (session : Session) :
    let container : ContainerHandle := ⟨.memory account location, name⟩
    let declared := definition.properties.kind
    let fromContainer := fun wanted : ObjectDefinition =>
      (left (create (.container container) (.object wanted)) session).storage
    let atObject := fun kind : EntityKind =>
      (left (create (.object (container.object path kind)) (.object definition)) session).storage
    container.isPresent session.storage = .ok true session.storage →
      (∀ kind, atObject kind = fromContainer (definition.ofKind kind)) ∧
      atObject declared = fromContainer definition ∧
      (definition.isWanted → definition.IsReadable →
        (∀ reader, ∃ shown,
          (container.object path reader).properties (fromContainer definition) =
          .ok shown (fromContainer definition) ∧ shown.kind = declared) ∧
        (∀ kind reader, ∃ shown, (container.object path reader).properties (atObject kind) =
          .ok shown (atObject kind) ∧ shown.kind = kind) ∧
        ∀ kind, atObject kind = fromContainer definition ↔ kind = declared) := by
  intro container declared fromContainer atObject present
  have there : (session.storage.store account location).contains name := by
    rw [ContainerHandle.is_present_on_memory] at present
    exact (EStateM.Result.ok.inj present).1
  have asKind : ∀ kind, atObject kind = fromContainer (definition.ofKind kind) := by
    -- Both come to one call. It takes the kind from the handle, and below the container the
    -- handle takes it from the definition.
    intro kind
    have sameName : (definition.ofKind kind).name = some path := named
    calc atObject kind
        = left (makeAll (objectPlan (container.object path kind) definition)) session.storage :=
          create_at_object _ definition session
      _ = left (makeAll (objectPlan (container.object path kind)
            ((definition.ofKind kind).boundTo path))) session.storage := by
          rw [make_all_of_kind container path path kind definition rfl]
      _ = left (makeAll (.container container {} :: objectPlan (container.object path kind)
            ((definition.ofKind kind).boundTo path))) session.storage :=
          (make_all_in_container _ rfl there).symm
      _ = fromContainer (definition.ofKind kind) :=
          (create_in_container container (definition.ofKind kind) sameName session).symm
  have asDeclared : atObject declared = fromContainer definition := asKind declared
  refine ⟨asKind, asDeclared, ?_⟩
  intro wanted readable
  have atHandle : ∀ kind reader, ∃ shown,
      (container.object path reader).properties (atObject kind) = .ok shown (atObject kind) ∧
        shown.kind = kind :=
    fun _ reader => create_at_object_shows there below wanted readable reader
  refine ⟨fun reader => asDeclared ▸ atHandle declared reader, atHandle, ?_⟩
  intro kind
  constructor
  · intro same
    obtain ⟨shown, read, ofHandle⟩ := atHandle kind kind
    obtain ⟨other, readOther, ofDefinition⟩ := atHandle declared kind
    rw [same, ← asDeclared, readOther] at read
    cases read
    exact ofHandle.symm.trans ofDefinition
  · intro same
    rw [same, asDeclared]

/-- A definition that names its object in an unclean way and declares a file. A file handle
makes the same of it as the container does, and a folder handle does not. -/
theorem create_agrees_across_bases_unclean_name :
    let account : Account := ⟨0, "account", .hierarchicalNamespace⟩
    let container : ContainerHandle := ⟨.memory account .blobFs, "c"⟩
    let definition : ObjectDefinition :=
      { name := some "/a//./b", body := some (.buffered [1, 2]) }
    let session : Session :=
      ⟨⟨"scenario", {}, .counting "n", [], []⟩,
        (Storage.fresh (.ofDirectories ⟨0⟩ [])).setStore account .blobFs
          (Table.singleton "c" (StoredContainer.created {})), []⟩
    let fromContainer :=
      (left (create (.container container) (.object definition)) session).storage
    let atObject := fun kind : EntityKind =>
      (left (create (.object (container.object "/a//./b" kind)) (.object definition))
        session).storage
    definition.name = some "/a//./b" ∧ ObjectPath.clean "/a//./b" ≠ "" ∧
      container.isPresent session.storage = .ok true session.storage ∧
      atObject .file = fromContainer ∧ atObject .folder ≠ fromContainer ∧
      ∃ shown, (container.object "/a//./b" .file).properties (atObject .folder) =
        .ok shown (atObject .folder) ∧ shown.kind = .folder := by
  intro account container definition session fromContainer atObject
  have present : container.isPresent session.storage = .ok true session.storage := by
    have there : (session.storage.store account .blobFs).contains "c" = true := by decide +kernel
    rw [ContainerHandle.is_present_on_memory, there]
  have below : ObjectPath.clean "/a//./b" ≠ "" := by decide +kernel
  obtain ⟨_, sameKind, made⟩ :=
    create_agrees_across_bases account .blobFs "c" definition rfl below session present
  obtain ⟨_, shows, onlyThen⟩ := made rfl (by unfold ObjectDefinition.IsReadable; decide)
  refine ⟨rfl, below, present, sameKind, ?_, shows .folder .file⟩
  intro same
  cases (onlyThen .folder).mp same

/-- An object that is declared as a file is made as a folder at the handle of a folder, so
the two bases leave different stores. -/
theorem create_differs_across_bases :
    let account : Account := ⟨0, "account", .standard⟩
    let container : ContainerHandle := ⟨.memory account .file, "c"⟩
    let definition : ObjectDefinition := { name := some "x" }
    let session : Session :=
      ⟨⟨"scenario", {}, .counting "n", [], []⟩,
        (Storage.fresh (.ofDirectories ⟨0⟩ [])).setStore account .file
          (Table.singleton "c" (StoredContainer.created {})), []⟩
    let fromContainer :=
      (left (create (.container container) (.object definition)) session).storage
    let atObject :=
      (left (create (.object (container.object "x" .folder)) (.object definition)) session).storage
    container.isPresent session.storage = .ok true session.storage ∧
      ObjectPath.clean "x" ≠ "" ∧ fromContainer ≠ atObject ∧
      definition.properties.kind = .file ∧
      ∃ shown, (container.object "x" .file).properties atObject = .ok shown atObject ∧
        shown.kind = .folder := by
  intro account container definition session fromContainer atObject
  have there : (session.storage.store account .file).contains "c" = true := by decide +kernel
  have below : ObjectPath.clean "x" ≠ "" := by decide +kernel
  refine ⟨?_, below, ?_, rfl, ?_⟩
  · rw [ContainerHandle.is_present_on_memory, there]
  · intro same
    have differ : fromContainer.store account .file ≠ atObject.store account .file := by
      decide +kernel
    exact differ (congrArg (fun storage => storage.store account .file) same)
  · exact create_at_object_shows there below rfl
      (by unfold ObjectDefinition.IsReadable; decide) .file

end Creation

end StorageScenario
