import StorageScenario.Proofs.Addressing
import StorageScenario.Proofs.CleanupRun

/-!
Setting the properties of an object that is there. An object is there if it is the root
folder, if it is stored, or, in a hierarchical service, if something is stored below it.
The first two take new properties and keep their kind and their data. A folder that is only
there because of what is below it has nowhere to keep properties, and refuses them.
-/

namespace StorageScenario

open ObjectPath Work

namespace StoredContainer

variable {container changed : StoredContainer} {path : String} {properties : ObjectProperties}

theorem set_object_properties_isSome :
    (container.setObjectProperties? path properties).isSome ↔
      path = "" ∨ (container.objects.get? path).isSome := by
  unfold setObjectProperties?
  by_cases atRoot : path = ""
  · simp [atRoot]
  · rw [if_neg atRoot]
    cases container.objects.get? path <;> simp [atRoot]

/-- What is shown once properties have been set: they are, with the kind that was shown
before, at their path, and all as before elsewhere. -/
theorem set_object_properties_shows
    (set : container.setObjectProperties? path properties = some changed) (hierarchical : Bool)
    (other : String) :
    changed.objectProperties? hierarchical other =
      if other = path then
        (container.objectProperties? hierarchical path).map fun before =>
          { properties with kind := before.kind }
      else container.objectProperties? hierarchical other := by
  unfold setObjectProperties? at set
  split at set
  · rename_i atRoot
    cases set
    subst atRoot
    by_cases here : other = ""
    · simp [objectProperties?, here]
    · unfold objectProperties?
      rw [if_neg here, if_neg here, if_neg here]
      rfl
  · rename_i notRoot
    split at set
    · cases set
    · rename_i object held
      cases set
      by_cases here : other = path
      · simp [objectProperties?, here, notRoot, held]
      · rw [if_neg here]
        by_cases atRoot : other = ""
        · simp [objectProperties?, atRoot]
        · have sameKeys : ∀ key, key ∈ (container.objects.insert path
              { object with
                properties := { properties with kind := object.properties.kind } }).keys ↔
              key ∈ container.objects.keys := by
            intro key
            rw [Table.mem_keys_insert, or_iff_right_of_imp]
            rintro rfl
            rw [Table.mem_keys_iff, held]
            rfl
          rw [object_properties_below hierarchical atRoot,
            object_properties_below hierarchical atRoot, implicit_of_keys sameKeys,
            Table.get?_insert, if_neg here]

theorem set_object_properties_container
    (set : container.setObjectProperties? path properties = some changed) :
    changed.properties = container.properties := by
  unfold setObjectProperties? at set
  split at set
  · cases set
    rfl
  · split at set <;> cases set
    rfl

theorem set_object_properties_keeps_data
    (set : container.setObjectProperties? path properties = some changed) (other : String) :
    (changed.objects.get? other).map (·.data) = (container.objects.get? other).map (·.data) := by
  rw [container.set_object_properties_get? set, Option.map_map]
  congr 1
  funext object
  unfold Function.comp StoredObject.withProperties
  split <;> rfl

end StoredContainer

/-- In any storage, properties can be set on an object that is there if and only if it is the
root folder or stored; then they are read back, with the kind that the object had, and the
properties and data of everything else are as before. A folder that is only there because of
what is below it is refused as if it were missing, and nothing changes. -/
theorem setting_properties_effect (storage : Storage) (account : Account) (location : Location)
    (name path : String) (kind : EntityKind) (properties : ObjectProperties) :
    let container : ContainerHandle := ⟨.memory account location, name⟩
    let object := container.object path kind
    let store := storage.store account location
    let isKept := clean path = "" ∨ (store.objectAt? name (clean path)).isSome
    object.isPresent storage = .ok true storage →
      ∃ before, object.properties storage = .ok before storage ∧
        (¬ isKept → before = ObjectProperties.folder ∧
          object.setProperties properties storage =
            .error (.notFound object.canonicalName) storage) ∧
        (isKept → ∃ after stored changed,
          object.setProperties properties storage = .ok () after ∧
          object.properties after = .ok { properties with kind := before.kind } after ∧
          store.get? name = some stored ∧
          (after.store account location).get? name = some changed ∧
          changed.properties = stored.properties ∧
          (∀ other, other ≠ clean path →
            changed.objectProperties? location.isHierarchical other =
              stored.objectProperties? location.isHierarchical other) ∧
          (∀ other, (changed.objects.get? other).map (·.data) =
            (stored.objects.get? other).map (·.data)) ∧
          (∀ other, other ≠ name →
            (after.store account location).get? other = store.get? other) ∧
          storage.SameElsewhere account location after) := by
  intro container object store isKept there
  have shown : ((storage.container? account location name).bind
      (·.objectProperties? location.isHierarchical (clean path))).isSome := by
    have present :=
      ObjectHandle.is_present_shown account location name (clean path) kind storage
    exact (EStateM.Result.ok.inj (present.symm.trans there)).1
  obtain ⟨before, isShown⟩ := Option.isSome_iff_exists.mp shown
  obtain ⟨stored, found, seen⟩ := Option.bind_eq_some_iff.mp isShown
  have held : store.objectAt? name (clean path) = stored.objects.get? (clean path) := by
    change (storage.container? account location name).bind _ = _
    rw [found, Option.bind_some]
  have keptIff : isKept ↔ (stored.setObjectProperties? (clean path) properties).isSome := by
    rw [StoredContainer.set_object_properties_isSome, ← held]
  refine ⟨before, ObjectHandle.properties_shown_iff.mpr isShown, ?implied, ?kept⟩
  case implied =>
    intro notKept
    have refused : stored.setObjectProperties? (clean path) properties = none := by
      rwa [keptIff, Option.not_isSome_iff_eq_none] at notKept
    have notStored : stored.objects.get? (clean path) = none := by
      rw [← held, ← Option.not_isSome_iff_eq_none]
      exact fun isStored => notKept (Or.inr isStored)
    constructor
    · rw [StoredContainer.object_properties_below _ fun atRoot => notKept (Or.inl atRoot),
        notStored, Option.map_none, Option.none_or, Option.ite_none_right_eq_some] at seen
      exact (Option.some.inj seen.2).symm
    · apply ObjectHandle.set_properties_missing_on_memory
      rw [show (storage.store account location).get? name = some stored from found,
        Option.bind_some, refused]
  case kept =>
    intro kept
    obtain ⟨changed, set⟩ := Option.isSome_iff_exists.mp (keptIff.mp kept)
    have ran := ObjectHandle.set_properties_on_memory account location name storage (clean path)
      kind found set
    have becomes : storage.Becomes account location name (some changed) _ :=
      Storage.becomes_insert changed
    have isChanged := becomes.here name
    rw [if_pos rfl] at isChanged
    have shows := StoredContainer.set_object_properties_shows set location.isHierarchical
    refine ⟨_, stored, changed, ran, ?_, found, isChanged, ?_, ?_,
      StoredContainer.set_object_properties_keeps_data set, ?_, becomes.elsewhere⟩
    · apply ObjectHandle.properties_shown_iff.mpr
      rw [isChanged, Option.bind_some, shows, if_pos rfl, seen, Option.map_some]
    · exact StoredContainer.set_object_properties_container set
    · intro other apart
      rw [shows, if_neg apart]
    · intro other apart
      have same := becomes.here other
      rwa [if_neg apart] at same

/-- A stored file takes new properties and stays a file. The folder that it is in is never
stored: it is there and shows its properties, but takes no others. -/
theorem setting_properties_effect_implied_folder :
    let account : Account := ⟨0, "account", .standard⟩
    let marked : ObjectProperties := { kind := .folder, metadata := some (Table.singleton "k" "v") }
    let history : List ServiceCall :=
      [⟨account, .file, .createContainer "c" {}⟩,
        ⟨account, .file, .createObject "c" "dir/x" .file (.zeros 0) {}⟩]
    let storage := (Storage.fresh (.ofDirectories ⟨0⟩ [])).replay history
    let container : ContainerHandle := ⟨.memory account .file, "c"⟩
    let folder := container.object "dir/" .folder
    let file := container.object "dir//x" .file
    folder.isPresent storage = .ok true storage ∧
      folder.properties storage = .ok ObjectProperties.folder storage ∧
      folder.setProperties marked storage = .error (.notFound "account/file/c/dir") storage ∧
      file.isPresent storage = .ok true storage ∧
      ∃ after, file.setProperties marked storage = .ok () after ∧
        file.properties after = .ok { marked with kind := .file } after := by
  intro account marked history storage container folder file
  have shownFolder : ((storage.container? account .file "c").bind
      (·.objectProperties? true (clean "dir/"))).isSome = true := by decide +kernel
  have shownFile : (storage.container? account .file "c").bind
      (·.objectProperties? true (clean "dir//x")) = some {} := by decide +kernel
  have folderThere : folder.isPresent storage = .ok true storage := by
    rw [← shownFolder]
    exact ObjectHandle.is_present_shown account .file "c" (clean "dir/") .folder storage
  have fileThere : file.isPresent storage = .ok true storage := by
    have present := ObjectHandle.is_present_shown account .file "c" (clean "dir//x") .file storage
    rwa [show Location.file.isHierarchical = true by rfl, shownFile] at present
  obtain ⟨implied, readFolder, refused, _⟩ :=
    setting_properties_effect storage account .file "c" "dir/" .folder marked folderThere
  obtain ⟨isFolder, failed⟩ := refused (by decide +kernel)
  obtain ⟨before, readFile, _, taken⟩ :=
    setting_properties_effect storage account .file "c" "dir//x" .file marked fileThere
  obtain ⟨after, _, _, ran, readBack, _⟩ := taken (by decide +kernel)
  have isFile : before = {} :=
    Option.some.inj ((ObjectHandle.properties_shown_iff.mp readFile).symm.trans shownFile)
  subst isFolder isFile
  exact ⟨folderThere, readFolder, failed, fileThere, after, ran, readBack⟩

end StorageScenario
