import StorageScenario.Proofs.ContainerHistory

/-!
How objects are addressed. Whatever paths calls are given, objects are stored under their
clean paths, which are names with slashes between them. So two paths stand for one object
if and only if they have one clean form. No call that sets properties changes what kind of
entity anything is.
-/

namespace StorageScenario

open ObjectPath Work

theorem ObjectPath.clean_pieces_are_names {path : String} (isClean : clean path = path)
    (below : path ≠ "") : AreNames (pieces path) := by
  have named : names path ≠ [] := fun noNames => below ((names_eq_nil_iff isClean).mp noNames)
  have split : pieces path = names path := by
    rw [← pieces_render named (names_are_names path), render_names isClean]
  rw [split]
  exact names_are_names path

namespace StoredContainer

variable {container changed : StoredContainer} {path other : String}

theorem implicit_of_keys {first second : StoredContainer}
    (sameKeys : ∀ key, key ∈ first.objects.keys ↔ key ∈ second.objects.keys)
    (path : String) :
    first.isImplicitFolder path = second.isImplicitFolder path := by
  unfold isImplicitFolder
  rw [Bool.eq_iff_iff, List.any_eq_true, List.any_eq_true]
  simp only [sameKeys]

theorem object_properties_below (hierarchical : Bool) (below : path ≠ "") :
    container.objectProperties? hierarchical path =
      ((container.objects.get? path).map (·.properties)).or
        (if hierarchical && container.isImplicitFolder path then some ObjectProperties.folder
        else none) := by
  unfold objectProperties?
  rw [if_neg below]
  cases container.objects.get? path <;> rfl

theorem put_object_shows (hierarchical : Bool) (object : StoredObject) :
    ∃ shown,
      (container.putObject path object).objectProperties? hierarchical path = some shown ∧
      shown.metadata = object.properties.metadata := by
  unfold putObject objectProperties?
  split
  · exact ⟨_, rfl, rfl⟩
  · rw [Table.get?_insert, if_pos rfl]
    exact ⟨_, rfl, rfl⟩

theorem mem_keys_put_object (object : StoredObject) (key : String) :
    key ∈ (container.putObject path object).objects.keys ↔
      path ≠ "" ∧ key = path ∨ key ∈ container.objects.keys := by
  unfold putObject
  by_cases atRoot : path = ""
  · rw [if_pos atRoot]
    simp [atRoot]
  · rw [if_neg atRoot, Table.mem_keys_insert]
    simp [atRoot]

theorem put_object_elsewhere (apart : other ≠ path) (hierarchical : Bool)
    (first second : StoredObject) :
    (container.putObject path first).objectProperties? hierarchical other =
      (container.putObject path second).objectProperties? hierarchical other := by
  by_cases atRoot : other = ""
  · have below : path ≠ "" := fun isRoot => apart (atRoot.trans isRoot.symm)
    unfold putObject
    rw [if_neg below, if_neg below, atRoot]
    rfl
  · have sameKeys : ∀ key, key ∈ (container.putObject path first).objects.keys ↔
        key ∈ (container.putObject path second).objects.keys := by
      intro key
      rw [mem_keys_put_object, mem_keys_put_object]
    rw [object_properties_below hierarchical atRoot, object_properties_below hierarchical atRoot,
      implicit_of_keys sameKeys, container.put_object_get? path first atRoot,
      container.put_object_get? path second atRoot, if_neg (Ne.symm apart),
      if_neg (Ne.symm apart)]

theorem stored_properties_metadata (location : Location) (kind : EntityKind)
    (properties : ObjectProperties) :
    (storedProperties location kind properties).metadata = properties.metadata := by
  unfold storedProperties
  dsimp only
  split <;> rfl

theorem set_object_properties_root {properties : ObjectProperties}
    (set : container.setObjectProperties? path properties = some changed) :
    changed.rootProperties.kind = container.rootProperties.kind := by
  unfold setObjectProperties? at set
  split at set
  · cases set
    rfl
  · split at set
    · cases set
    · cases set
      rfl

theorem set_object_properties_keeps_kinds {properties : ObjectProperties}
    (set : container.setObjectProperties? path properties = some changed) (hierarchical : Bool)
    (other : String) :
    (changed.objectProperties? hierarchical other).map (·.kind) =
      (container.objectProperties? hierarchical other).map (·.kind) := by
  by_cases atRoot : other = ""
  · rw [atRoot]
    exact congrArg some (set_object_properties_root set)
  · have held := container.set_object_properties_get? set
    have sameKeys : ∀ key, key ∈ changed.objects.keys ↔ key ∈ container.objects.keys := by
      intro key
      rw [Table.mem_keys_iff, Table.mem_keys_iff, held, Option.isSome_map]
    have sameKind : ∀ object : StoredObject, (if path ≠ "" ∧ path = other then
        object.withProperties properties else object).properties.kind =
          object.properties.kind := by
      intro object
      split <;> rfl
    rw [object_properties_below hierarchical atRoot, object_properties_below hierarchical atRoot,
      implicit_of_keys sameKeys, Option.map_or, Option.map_or, held, Option.map_map,
      Option.map_map, Option.map_map]
    congr 2
    funext object
    exact sameKind object

end StoredContainer

namespace StoreCall

def SetsProperties : StoreCall → Prop
  | .setContainerProperties _ _ => True
  | .setObjectProperties _ _ _ _ => True
  | _ => False

theorem effect_keeps_kinds {call : StoreCall} (sets : call.SetsProperties) (location : Location)
    (found : Option StoredContainer) (hierarchical : Bool) (path : String) :
    ((call.effect location found).bind (·.objectProperties? hierarchical path)).map (·.kind) =
      (found.bind (·.objectProperties? hierarchical path)).map (·.kind) := by
  cases call with
  | setContainerProperties name properties => cases found <;> rfl
  | setObjectProperties name raw kind properties =>
      cases set : found.bind (·.setObjectProperties? (clean raw) properties) with
      | none => rw [effect_of_refused_set set]
      | some changed =>
          obtain ⟨stored, isStored, isChanged⟩ := Option.bind_eq_some_iff.mp set
          rw [effect_of_set set, isStored, Option.bind_some, Option.bind_some]
          exact StoredContainer.set_object_properties_keeps_kinds isChanged hierarchical path
  | _ => cases sets

end StoreCall

section Reading

variable {account : Account} {location : Location} {name path : String} {reader : EntityKind}

theorem ObjectHandle.kind_shown_iff {storage : Storage} {kind : EntityKind} :
    (∃ shown,
        (ObjectHandle.mk ⟨.memory account location, name⟩ path reader).properties storage =
          .ok shown storage ∧ shown.kind = kind) ↔
      ((storage.container? account location name).bind
        (·.objectProperties? location.isHierarchical path)).map (·.kind) = some kind := by
  rw [Option.map_eq_some_iff]
  simp only [ObjectHandle.properties_shown_iff]

theorem Storage.next_keeps_kinds {step : ServiceCall} (sets : step.call.SetsProperties)
    (storage : Storage) (hierarchical : Bool) :
    (((storage.next step).container? account location name).bind
        (·.objectProperties? hierarchical path)).map (·.kind) =
      ((storage.container? account location name).bind
        (·.objectProperties? hierarchical path)).map (·.kind) := by
  rw [Storage.next_container?]
  split
  · exact StoreCall.effect_keeps_kinds sets location _ hierarchical path
  · rfl

/-- If what is put through one path is always read through the other, the two paths have
one clean form. -/
theorem clean_eq_of_same_readings {storage : Storage} {first second : String}
    (there : (storage.store account location).contains name)
    (same : ∀ properties,
      let container : ContainerHandle := ⟨.memory account location, name⟩
      let after := left ((container.object first .file).create (.zeros 0) properties) storage
      (container.object second .file).properties after =
        (container.object first .file).properties after) :
    clean first = clean second := by
  obtain ⟨stored, found⟩ := Option.isSome_iff_exists.mp there
  let put := fun properties : ObjectProperties => stored.putObject (clean first)
    ⟨StoredContainer.storedProperties location .file properties, (Body.zeros 0).yielded⟩
  have shows : ∀ properties, ∃ shown,
      (put properties).objectProperties? location.isHierarchical (clean second) = some shown ∧
        shown.metadata = properties.metadata := by
    intro properties
    let container : ContainerHandle := ⟨.memory account location, name⟩
    let after := storage.setStore account location
      ((storage.store account location).insert name (put properties))
    have ends : left ((container.object first .file).create (.zeros 0) properties) storage =
        after :=
      left_of_ok (ObjectHandle.create_on_memory account location name storage (clean first) .file
        found rfl properties)
    have sameReading : (container.object second .file).properties after =
        (container.object first .file).properties after := by
      rw [← ends]
      exact same properties
    have holds : after.container? account location name = some (put properties) := by
      unfold Storage.container?
      rw [Storage.store_set_store, Table.get?_insert, if_pos rfl]
    obtain ⟨shown, seen, sameMetadata⟩ :=
      StoredContainer.put_object_shows location.isHierarchical
      ⟨StoredContainer.storedProperties location .file properties, (Body.zeros 0).yielded⟩
    have readFirst := (ObjectHandle.properties_ok_iff holds (clean first) .file shown).mpr seen
    have readSecond := sameReading.trans readFirst
    exact ⟨shown, (ObjectHandle.properties_ok_iff holds (clean second) .file shown).mp readSecond,
      sameMetadata.trans (StoredContainer.stored_properties_metadata location .file properties)⟩
  -- What the second path shows does not depend on what is put through the first, unless they
  -- meet, but it would have to show the metadata of either.
  by_contra apart
  obtain ⟨bare, seenBare, noMetadata⟩ := shows {}
  obtain ⟨marked, seenMarked, hasMetadata⟩ := shows { metadata := some ∅ }
  have sameShown : (put {}).objectProperties? location.isHierarchical (clean second) =
      (put { metadata := some ∅ }).objectProperties? location.isHierarchical (clean second) :=
    StoredContainer.put_object_elsewhere (Ne.symm apart) location.isHierarchical _ _
  rw [seenBare, seenMarked] at sameShown
  cases sameShown
  rw [noMetadata] at hasMetadata
  cases hasMetadata

end Reading

/-- After any history, objects are stored under clean paths below the root folder, which
is a folder. Setting properties leaves every entity of its kind. And two paths stand for
one object, what is put through the one being read through the other, if and only if they
have one clean form. -/
theorem representation_invariant (disk : FileTree) (history : List ServiceCall)
    (account : Account) (location : Location) (name : String) :
    let storage := (Storage.fresh disk).replay history
    let container : ContainerHandle := ⟨.memory account location, name⟩
    (∀ stored, (storage.store account location).get? name = some stored →
      (∀ key ∈ stored.objects.keys, key ≠ "" ∧ clean key = key ∧
        AreNames (pieces key)) ∧
      stored.rootProperties.kind = .folder) ∧
    (∀ step : ServiceCall, step.call.SetsProperties → ∀ path reader kind,
      let object := container.object path reader
      let after := storage.next step
      (∃ shown, object.properties after = .ok shown after ∧ shown.kind = kind) ↔
        ∃ shown, object.properties storage = .ok shown storage ∧ shown.kind = kind) ∧
    (container.isPresent storage = .ok true storage → ∀ first second,
      clean first = clean second ↔
        ∀ kind body properties reader, body.failure? = none →
          let after := left ((container.object first kind).create body properties) storage
          (container.object second reader).properties after =
            (container.object first reader).properties after ∧
          (container.object second reader).download after =
            (container.object first reader).download after) := by
  intro storage container
  have sound : storage.Sound := Storage.replay_sound (Storage.fresh_sound disk) history
  refine ⟨?stored, ?kinds, ?addresses⟩
  case stored =>
    intro stored found
    have inOrder := sound account location name stored found
    constructor
    · intro key member
      have below : key ≠ "" := fun empty => inOrder.below (empty ▸ member)
      have isClean := inOrder.clean key member
      exact ⟨below, isClean, clean_pieces_are_names isClean below⟩
    · exact inOrder.root
  case kinds =>
    intro step sets path reader kind object after
    calc (∃ shown, object.properties after = .ok shown after ∧ shown.kind = kind)
        ↔ ((after.container? account location name).bind
            (·.objectProperties? location.isHierarchical (clean path))).map (·.kind) =
              some kind :=
          ObjectHandle.kind_shown_iff
      _ ↔ ((storage.container? account location name).bind
            (·.objectProperties? location.isHierarchical (clean path))).map (·.kind) =
              some kind := by
          rw [Storage.next_keeps_kinds sets storage]
      _ ↔ ∃ shown, object.properties storage = .ok shown storage ∧ shown.kind = kind :=
          ObjectHandle.kind_shown_iff.symm
  case addresses =>
    intro present first second
    constructor
    · intro same kind body properties reader _ after
      have sameHandle : container.object second reader = container.object first reader := by
        unfold ContainerHandle.object
        rw [same]
      rw [sameHandle]
      exact ⟨rfl, rfl⟩
    · intro same
      have there : (storage.store account location).contains name := by
        rw [ContainerHandle.is_present_on_memory] at present
        exact (EStateM.Result.ok.inj present).1
      apply clean_eq_of_same_readings there
      intro properties
      exact (same .file (.zeros 0) properties .file rfl).1

/-- An object that is put at one of two spellings is read at the other, and it stays a
folder when properties are set that say otherwise. -/
theorem representation_invariant_two_spellings :
    let account : Account := ⟨0, "account", .hierarchicalNamespace⟩
    let history : List ServiceCall :=
      [⟨account, .blobFs, .createContainer "c" {}⟩,
        ⟨account, .blobFs, .createObject "c" "/a/../b//./x" .folder (.zeros 0) {}⟩]
    let step : ServiceCall :=
      ⟨account, .blobFs, .setObjectProperties "c" "b/x/" .file { metadata := some ∅ }⟩
    let storage := (Storage.fresh (.ofDirectories ⟨0⟩ [])).replay history
    let after := storage.next step
    let container : ContainerHandle := ⟨.memory account .blobFs, "c"⟩
    container.isPresent storage = .ok true storage ∧ step.call.SetsProperties ∧
      ((storage.store account .blobFs).get? "c").map (·.objects.keys) = some ["b/x"] ∧
      AreNames (pieces "b/x") ∧
      (∃ shown, (container.object "b/x" .file).properties after = .ok shown after ∧
        shown.kind = .folder) ∧
      ∀ body, body.failure? = none →
        let later := left ((container.object "../y" .file).create body {}) storage
        (container.object "y/." .file).download later =
          (container.object "../y" .file).download later := by
  intro account history step storage after container
  obtain ⟨normal, kinds, addresses⟩ :=
    representation_invariant (.ofDirectories ⟨0⟩ []) history account .blobFs "c"
  have present : container.isPresent storage = .ok true storage := by
    have isThere : (storage.store account .blobFs).contains "c" = true := by decide +kernel
    rw [ContainerHandle.is_present_on_memory, isThere]
  have keys : ((storage.store account .blobFs).get? "c").map (·.objects.keys) = some ["b/x"] := by
    decide +kernel
  have wasFolder : ∃ shown, (container.object "b/x" .file).properties storage =
      .ok shown storage ∧ shown.kind = .folder := by
    apply ObjectHandle.kind_shown_iff.mpr
    decide +kernel
  obtain ⟨stored, found, sameKeys⟩ := Option.map_eq_some_iff.mp keys
  have proper := (normal stored found).1 "b/x" (by rw [sameKeys]; exact List.mem_singleton_self _)
  have sameClean : clean "../y" = clean "y/." := by decide +kernel
  have sameReadings := (addresses present "../y" "y/.").mp sameClean
  have isFolder := (kinds step trivial "b/x" .file .folder).mpr wasFolder
  refine ⟨present, trivial, keys, proper.2.2, isFolder, ?_⟩
  intro body readable
  exact (sameReadings .file body {} .file readable).2

end StorageScenario
