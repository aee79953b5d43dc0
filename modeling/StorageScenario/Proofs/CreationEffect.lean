import StorageScenario.Proofs.CreationRun
import StorageScenario.Proofs.LevelAlgebra

/-!
What a creation leaves in the store of an emulated service. Containers that were
there keep their properties, the last wanted object of every path is stored
there, and nothing else changes.
-/

namespace StorageScenario.Creation

/-- The last wanted object of a list whose path has this clean form. -/
def lastWanted? (path : String) (objects : List (String × ObjectDefinition)) :
    Option ObjectDefinition :=
  (objects.filter fun entry =>
    entry.2.isWanted && ObjectPath.clean entry.1 == path).getLast?.map Prod.snd

theorem last_wanted_cons (path : String) (entry : String × ObjectDefinition)
    (rest : List (String × ObjectDefinition)) :
    lastWanted? path (entry :: rest) =
      (lastWanted? path rest).or
        (if entry.2.isWanted ∧ ObjectPath.clean entry.1 = path then some entry.2 else none) := by
  unfold lastWanted?
  by_cases chosen : entry.2.isWanted ∧ ObjectPath.clean entry.1 = path
  · rw [List.filter_cons_of_pos (by simpa using chosen), List.getLast?_cons, if_pos chosen]
    cases (rest.filter _).getLast? <;> simp
  · rw [List.filter_cons_of_neg (by simpa using chosen), if_neg chosen, Option.or_none]

def fill (location : Location) (stored : StoredContainer)
    (objects : List (String × ObjectDefinition)) : StoredContainer :=
  objects.foldl (placeObject location) stored

theorem fill_properties (location : Location) (objects : List (String × ObjectDefinition))
    (stored : StoredContainer) :
    (fill location stored objects).properties = stored.properties := by
  induction objects generalizing stored with
  | nil => rfl
  | cons entry rest ih =>
      have kept : (placeObject location stored entry).properties = stored.properties := by
        unfold placeObject StoredContainer.putObject
        split
        · split <;> rfl
        · rfl
      exact (ih (placeObject location stored entry)).trans kept

theorem place_object_get? (location : Location) (stored : StoredContainer)
    (entry : String × ObjectDefinition) {path : String} (below : path ≠ "") :
    (placeObject location stored entry).objects.get? path =
      if entry.2.isWanted ∧ ObjectPath.clean entry.1 = path then
        some (storedObject location entry.2)
      else stored.objects.get? path := by
  unfold placeObject StoredContainer.putObject
  by_cases wanted : entry.2.isWanted
  · rw [if_pos wanted]
    by_cases atRoot : ObjectPath.clean entry.1 = ""
    · rw [if_pos atRoot, if_neg (by rintro ⟨_, same⟩; exact below (same ▸ atRoot))]
    · rw [if_neg atRoot]
      simp only [Table.get?_insert, wanted, true_and, eq_comm]
  · rw [if_neg wanted, if_neg (by rintro ⟨yes, _⟩; exact wanted yes)]

theorem fill_get? (location : Location) (objects : List (String × ObjectDefinition))
    (stored : StoredContainer) {path : String} (below : path ≠ "") :
    (fill location stored objects).objects.get? path =
      ((lastWanted? path objects).map (storedObject location)).or
        (stored.objects.get? path) := by
  induction objects generalizing stored with
  | nil => simp [fill, lastWanted?]
  | cons entry rest ih =>
      have later := ih (placeObject location stored entry)
      rw [last_wanted_cons]
      rw [place_object_get? location stored entry below] at later
      change (fill location (placeObject location stored entry) rest).objects.get? path = _
      rw [later]
      cases lastWanted? path rest with
      | some last => simp
      | none =>
          by_cases chosen : entry.2.isWanted ∧ ObjectPath.clean entry.1 = path
          · simp [chosen]
          · simp [if_neg chosen]

theorem fill_root (location : Location) (objects : List (String × ObjectDefinition))
    (stored : StoredContainer) :
    (fill location stored objects).rootProperties =
      match lastWanted? "" objects with
      | some last => { (storedObject location last).properties with kind := .folder }
      | none => stored.rootProperties := by
  induction objects generalizing stored with
  | nil => rfl
  | cons entry rest ih =>
      change (fill location (placeObject location stored entry) rest).rootProperties = _
      rw [ih, last_wanted_cons]
      cases lastWanted? "" rest with
      | some last => simp
      | none =>
          unfold placeObject StoredContainer.putObject
          by_cases wanted : entry.2.isWanted
          · by_cases atRoot : ObjectPath.clean entry.1 = "" <;> simp [wanted, atRoot]
          · simp [wanted]

def populate (location : Location) (definition : ContainerDefinition)
    (before : Option StoredContainer) : Option StoredContainer :=
  if definition.isWanted then
    some (fill location (before.getD (StoredContainer.created definition.properties))
      definition.objects.flatten.entries)
  else before

theorem put_objects_store (location : Location) (container : ContainerHandle)
    (objects : List (String × ObjectDefinition)) (progress : Progress) (key : String) :
    (objects.foldl (Progress.putObject location container) progress).store.get? key =
      if key = container.name then
        (progress.store.get? key).map fun stored => fill location stored objects
      else progress.store.get? key := by
  induction objects generalizing progress with
  | nil => simp [fill]
  | cons entry rest ih =>
      rw [List.foldl_cons, ih]
      have round : (progress.putObject location container entry).store.get? key =
          if key = container.name then
            (progress.store.get? key).map fun stored => placeObject location stored entry
          else progress.store.get? key := by
        unfold Progress.putObject
        by_cases same : key = container.name
        · subst same
          cases found : progress.store.get? container.name with
          | none => simp [found]
          | some stored =>
              cases wanted : entry.2.isWanted <;>
                simp [placeObject, wanted, found, Table.get?_insert]
        · cases progress.store.get? container.name with
          | none => simp [same]
          | some stored => cases entry.2.isWanted <;> simp [same, Table.get?_insert]
      rw [round]
      by_cases same : key = container.name
      · simp only [if_pos same, Option.map_map]
        rfl
      · simp only [if_neg same]

theorem open_container_store (container : ContainerHandle) (progress : Progress)
    (properties : ContainerProperties) (key : String) :
    (progress.openContainer container properties).store.get? key =
      if key = container.name then
        some ((progress.store.get? key).getD (StoredContainer.created properties))
      else progress.store.get? key := by
  unfold Progress.openContainer Table.contains
  by_cases same : key = container.name
  · subst same
    cases found : progress.store.get? container.name with
    | none => simp [Table.get?_insert]
    | some stored => simp [found]
  · cases (progress.store.get? container.name).isSome <;> simp [same, Table.get?_insert]

theorem put_container_store (location : Location) (service : ServiceHandle)
    (progress : Progress) (entry : String × ContainerDefinition) (key : String) :
    (progress.putContainer location service entry).store.get? key =
      if key = entry.1 then populate location entry.2 (progress.store.get? key)
      else progress.store.get? key := by
  unfold Progress.putContainer populate
  by_cases wanted : entry.2.isWanted
  · simp only [if_pos wanted]
    rw [put_objects_store, open_container_store]
    by_cases same : key = entry.1
    · simp [same, ServiceHandle.container]
    · simp [same, ServiceHandle.container]
  · simp only [if_neg wanted, ite_self]

theorem put_containers_store (location : Location) (service : ServiceHandle)
    (definition : ServiceDefinition) (progress : Progress) (key : String) :
    (definition.containers.entries.foldl (Progress.putContainer location service)
        progress).store.get? key =
      match definition.containers.get? key with
      | some wanted => populate location wanted (progress.store.get? key)
      | none => progress.store.get? key := by
  have rounds := Table.lookup_after_rounds
    (fun (progress : Progress) key => progress.store.get? key)
    (put_container_store location service) definition.containers.ordered progress key
  rw [rounds]
  change _ = match definition.containers.entries.lookup key with
    | some wanted => _
    | none => _
  cases definition.containers.entries.lookup key <;> rfl

/-- Below a service a creation follows the fold over the service definition that its
definition is lifted to. -/
theorem create_follows (account : Account) (location : Location) {definition bound : Definition}
    {lifted : ServiceDefinition} {target : Resource} {session between : Session}
    (ranLift : Definition.liftTimes definition.level.depth definition session =
      .ok (.service lifted) between)
    (lowered : Definition.lowerTimes definition.level.depth (.service lifted)
      (.service (.memory account location)) = .ok (target, bound))
    (readable : lifted.IsReadable) :
    ∃ after,
      create (.service (.memory account location)) definition session = .ok target after ∧
      Follows account location between after
        (lifted.containers.entries.foldl
          (Progress.putContainer location (.memory account location))
          ⟨between.storage.store account location, between.context.created⟩) := by
  have shallow : (Resource.service (.memory account location)).level ≤ definition.level :=
    Nat.zero_le _
  obtain ⟨opening, closing, same⟩ := create_after_lift shallow ranLift lowered
  obtain ⟨log, ranOpening⟩ := Work.note_yields .debug opening between
  have started : Follows account location between ⟨between.context, between.storage, log⟩
      ⟨between.storage.store account location, between.context.created⟩ :=
    ⟨rfl, Storage.same_elsewhere_refl account location between.storage, rfl⟩
  obtain ⟨walked, ranWalk, follows⟩ := visit_service_follows started readable
  obtain ⟨finished, ranClosing⟩ := Work.note_yields .info closing walked
  rw [same]
  exact ⟨_, Work.bind_ok_iff.mpr ⟨_, _, ranOpening, Work.bind_ok_iff.mpr ⟨_, _, ranWalk,
    Work.bind_ok_iff.mpr ⟨_, _, ranClosing, rfl⟩⟩⟩,
    follows.store, follows.elsewhere, follows.context⟩

/-- An object as a definition wants it stored. A file in a blob location has a blob
type even if none is declared, and an object without a body is empty. -/
def expectedObject (location : Location) (definition : ObjectDefinition) : StoredObject where
  properties :=
    { definition.properties with
      blob := { definition.properties.blob with
        blobType :=
          if definition.properties.kind = .file ∧ (location = .blob ∨ location = .blobFs) then
            some (definition.properties.blob.blobType.getD .blockBlob)
          else definition.properties.blob.blobType } }
  data :=
    match definition.body with
    | some body => body.yielded
    | none => []

theorem stored_object_eq_expected (location : Location) (definition : ObjectDefinition) :
    storedObject location definition = expectedObject location definition := by
  obtain ⟨name, properties, body, shouldExist⟩ := definition
  obtain ⟨kind, headers, metadata, ⟨blobType, tags, blockTier, pageTier⟩,
    blobFs, file, nfs⟩ :=
    properties
  have sameData : (body.getD (.zeros 0)).yielded =
      match body with
      | some body => body.yielded
      | none => [] := by
    cases body <;> rfl
  unfold storedObject expectedObject StoredContainer.storedProperties
  simp only [sameData, StoredObject.mk.injEq, and_true]
  by_cases defaulted : kind = .file ∧ (location = .blob ∨ location = .blobFs)
  · cases blobType with
    | none => simp [defaulted]
    | some declared => simp [defaulted]
  · rw [if_neg defaulted, if_neg]
    rintro ⟨blob, isFile, _⟩
    exact defaulted ⟨isFile, blob⟩

/-- The exact effect of a creation on the store of its service: which containers are
there afterwards, what is in those that are wanted, and that the others, like all
that lies outside the service, stay as they were. -/
theorem create_effect (account : Account) (location : Location) (definition : ServiceDefinition)
    (session : Session) (readable : definition.IsReadable) :
    ∃ after,
      create (.service (.memory account location)) (.service definition) session =
        .ok (.service (.memory account location)) after ∧
      let old := session.storage.store account location
      let new := after.storage.store account location
      (∀ name, (new.get? name).isSome ↔
        (old.get? name).isSome ∨
          ∃ wanted, definition.containers.get? name = some wanted ∧ wanted.isWanted) ∧
      (∀ name wanted, definition.containers.get? name = some wanted → wanted.isWanted →
        ∃ stored, new.get? name = some stored ∧
          stored.properties = ((old.get? name).map (·.properties)).getD wanted.properties ∧
          (∀ path, path ≠ "" →
            stored.objects.get? path =
              ((lastWanted? path wanted.objects.flatten.entries).map
                (expectedObject location)).or ((old.get? name).bind (·.objects.get? path))) ∧
          stored.rootProperties =
            match lastWanted? "" wanted.objects.flatten.entries with
            | some last => { (expectedObject location last).properties with kind := .folder }
            | none => ((old.get? name).map (·.rootProperties)).getD ObjectProperties.folder) ∧
      (∀ name,
        (∀ wanted, definition.containers.get? name = some wanted → ¬ wanted.isWanted) →
          new.get? name = old.get? name) ∧
      session.storage.SameElsewhere account location after.storage := by
  have lowered : Definition.lowerTimes (Definition.service definition).level.depth
      (.service definition) (.service (.memory account location)) =
      .ok (.service (.memory account location), .service definition) := rfl
  obtain ⟨after, ran, follows⟩ := create_follows account location rfl lowered readable
  refine ⟨after, ran, ?_⟩
  intro old new
  have lookups : ∀ name, new.get? name =
      match definition.containers.get? name with
      | some wanted => populate location wanted (old.get? name)
      | none => old.get? name := by
    intro name
    have same := put_containers_store location (.memory account location) definition
      ⟨old, session.context.created⟩ name
    rw [← follows.store] at same
    exact same
  have sameObject := funext (stored_object_eq_expected location)
  refine ⟨?_, ?_, ?_, follows.elsewhere⟩
  · intro name
    rw [lookups]
    cases definition.containers.get? name with
    | none => simp
    | some wanted =>
        unfold populate
        by_cases isWanted : wanted.isWanted <;> simp [isWanted]
  · intro name wanted declared isWanted
    refine ⟨_, by rw [lookups, declared]; exact if_pos isWanted, ?_, ?_, ?_⟩
    · rw [fill_properties]
      cases old.get? name <;> rfl
    · intro path below
      rw [fill_get? location _ _ below, sameObject]
      cases old.get? name <;> rfl
    · rw [fill_root, sameObject]
      cases lastWanted? "" wanted.objects.flatten.entries with
      | some last => rfl
      | none => cases old.get? name <;> rfl
  · intro name unwanted
    rw [lookups]
    cases declared : definition.containers.get? name with
    | none => rfl
    | some wanted => exact if_neg (unwanted wanted declared)

/-- Of two spellings of one path the later one stays. -/
theorem create_effect_two_spellings :
    let account : Account := ⟨0, "account", .standard⟩
    let objects : Table ObjectDefinition := Table.ofList
      [("a//b", { body := some (.buffered [1]) }), ("a/b", { body := some (.buffered [2]) })]
    let definition : ServiceDefinition := ⟨Table.singleton "c" { objects := .flat objects }⟩
    let session : Session :=
      ⟨⟨"scenario", {}, .counting "n", [], []⟩, .fresh (.ofDirectories ⟨0⟩ []), []⟩
    definition.IsReadable ∧
      ∃ after stored,
        create (.service (.memory account .blobFs)) (.service definition) session =
          .ok (.service (.memory account .blobFs)) after ∧
        (after.storage.store account .blobFs).get? "c" = some stored ∧
        stored.objects.get? "a/b" =
          some (expectedObject .blobFs { body := some (.buffered [2]) }) := by
  intro account objects definition session
  have entries : objects.entries =
      [("a//b", { body := some (.buffered [1]) }), ("a/b", { body := some (.buffered [2]) })] := by
    rfl
  have readable : definition.IsReadable := by
    intro container member _ object inside _ body declared
    simp only [definition, Table.singleton, List.mem_singleton] at member
    subst member
    change object ∈ objects.entries at inside
    rw [entries] at inside
    simp only [List.mem_cons, List.not_mem_nil, or_false] at inside
    rcases inside with rfl | rfl <;> cases declared <;> rfl
  obtain ⟨after, ran, _, contents, _⟩ :=
    create_effect account .blobFs definition session readable
  obtain ⟨stored, found, _, paths, _⟩ := contents "c" { objects := .flat objects } rfl rfl
  refine ⟨readable, after, stored, ran, found, ?_⟩
  have last : lastWanted? "a/b" objects.entries =
      some { body := some (.buffered [2]) } := by
    rw [entries]
    rfl
  have atPath := paths "a/b" (by decide)
  change _ = ((lastWanted? "a/b" objects.entries).map _).or _ at atPath
  rw [last] at atPath
  exact atPath

end StorageScenario.Creation
