import StorageScenario.Proofs.Divergence
import StorageScenario.Proofs.ListingLookup
import StorageScenario.Proofs.StoreHistory

/-!
Three views of a container: whether an object is there, what its properties are, and
the listing of everything. A listing meets the folders above each object on its way,
and neither hides what is stored at a folder nor is hidden by it, so all three views
are one look-up.
-/

namespace StorageScenario

open ObjectPath

namespace StoredContainer

theorem shows_itself_from_start (path : String) :
    showsItself "" true path = decide (path ≠ "") := by
  have whole : Text.remainder? "" path = some path :=
    (Text.remainder_eq_some_iff "" path path).mpr (by simp)
  unfold showsItself
  rw [whole]
  simp

/-- The folders that a listing of everything meets on the way to an object are the paths
that it is below. -/
theorem mem_folders_on_way (hierarchical : Bool) (path key : String) :
    path ∈ foldersOnWay "" true hierarchical key ↔
      hierarchical ∧ Text.startsWith key (below path) := by
  have whole : Text.remainder? "" key = some key :=
    (Text.remainder_eq_some_iff "" key key).mpr (by simp)
  have belowLetters : (below path).toList = path.toList ++ ['/'] := String.toList_append
  unfold foldersOnWay
  rw [whole, starts_with_iff, belowLetters, ← mem_before_slashes]
  cases hierarchical with
  | false => simp
  | true =>
      simp only [if_true, List.mem_map, true_and]
      constructor
      · rintro ⟨part, member, same⟩
        rw [← same]
        simpa using member
      · intro member
        exact ⟨path.toList, member, by simp⟩

theorem list_all_get? (container : StoredContainer) (hierarchical : Bool)
    {path : String} (notRoot : path ≠ "") :
    (container.list hierarchical "" true).get? path =
      container.objectProperties? hierarchical path := by
  have fromStart : container.list hierarchical "" true =
      container.listFrom "" true hierarchical := by
    cases hierarchical <;> rfl
  have met : (container.objects.keys.any fun key =>
      path ∈ foldersOnWay "" true hierarchical key) =
        (hierarchical && container.isImplicitFolder path) := by
    unfold isImplicitFolder
    simp only [mem_folders_on_way]
    cases hierarchical <;> simp
  rw [fromStart, list_from_get?, met, shows_itself_from_start, if_pos (decide_eq_true notRoot)]
  unfold objectProperties?
  rw [if_neg notRoot]
  cases container.objects.get? path <;> rfl

end StoredContainer

theorem ObjectHandle.properties_ok_iff {account : Account} {location : Location}
    {name : String} {storage : Storage} {stored : StoredContainer}
    (found : (storage.store account location).get? name = some stored) (path : String)
    (kind : EntityKind) (properties : ObjectProperties) :
    (ObjectHandle.mk ⟨.memory account location, name⟩ path kind).properties storage =
        .ok properties storage ↔
      stored.objectProperties? location.isHierarchical path = some properties := by
  cases held : stored.objectProperties? location.isHierarchical path with
  | none =>
      have missing :=
        properties_missing_on_memory account location name storage path kind found held
      simp [missing]
  | some shown =>
      have read := properties_on_memory account location name storage path kind found held
      simp [read]

/-- After any history, whether an object is there, its properties and the listing of
everything are three views of one thing, and what is stored at a path shows in them all. -/
theorem views_agree (disk : FileTree) (history : List ServiceCall) (account : Account)
    (location : Location) (name : String) :
    let storage := (Storage.fresh disk).replay history
    let container : ContainerHandle := ⟨.memory account location, name⟩
    container.isPresent storage = .ok true storage →
      ∃ listed, container.list "" true storage = .ok listed storage ∧
        ∀ path kind, clean path ≠ "" →
          let object := container.object path kind
          (∃ present, object.isPresent storage = .ok present storage) ∧
          (object.isPresent storage = .ok true storage ↔
            ∃ properties, object.properties storage = .ok properties storage) ∧
          ((∃ properties, object.properties storage = .ok properties storage) ↔
            clean path ∈ listed.keys) ∧
          (∀ properties, listed.get? (clean path) = some properties ↔
            object.properties storage = .ok properties storage) ∧
          ∀ stored held, (storage.store account location).get? name = some stored →
            stored.objects.get? (clean path) = some held →
              listed.get? (clean path) = some held.properties := by
  intro storage container there
  have isThere : ((storage.store account location).get? name).isSome := by
    rw [ContainerHandle.is_present_on_memory] at there
    exact (EStateM.Result.ok.inj there).1
  obtain ⟨stored, found⟩ := Option.isSome_iff_exists.mp isThere
  refine ⟨_, ContainerHandle.list_on_memory account location name storage found "" true, ?_⟩
  intro path kind notRoot object
  have shown := stored.list_all_get? location.isHierarchical notRoot
  have reads := ObjectHandle.properties_ok_iff found (clean path) kind
  have seen : object.isPresent storage =
      .ok (stored.objectProperties? location.isHierarchical (clean path)).isSome storage := by
    rw [← stored.has_object_iff]
    have present :=
      ObjectHandle.is_present_on_memory account location name storage (clean path) kind
    rw [found] at present
    exact present
  have readable : (∃ properties, object.properties storage = .ok properties storage) ↔
      (stored.objectProperties? location.isHierarchical (clean path)).isSome := by
    rw [Option.isSome_iff_exists]
    exact exists_congr reads
  refine ⟨⟨_, seen⟩, ?_, ?_, ?_, ?_⟩
  · rw [readable, seen]
    simp
  · rw [readable, Table.mem_keys_iff, shown]
  · intro properties
    rw [shown]
    exact (reads properties).symm
  · intro other held same isStored
    cases found.symm.trans same
    rw [shown, StoredContainer.objectProperties?, if_neg notRoot, isStored]

/-- A folder that is stored after a file in it keeps its own properties in a listing, and
a folder that is never stored is there all the same. -/
theorem views_agree_late_folder :
    let account : Account := ⟨0, "account", .hierarchicalNamespace⟩
    let marked : ObjectProperties := { metadata := some (Table.singleton "k" "v") }
    let history : List ServiceCall :=
      [⟨account, .blobFs, .createContainer "c" {}⟩,
        ⟨account, .blobFs, .createObject "c" "/dir//sub/x" .file (.buffered [1]) {}⟩,
        ⟨account, .blobFs, .createObject "c" "dir/." .folder (.zeros 0) marked⟩]
    let storage := (Storage.fresh (.ofDirectories ⟨0⟩ [])).replay history
    let container : ContainerHandle := ⟨.memory account .blobFs, "c"⟩
    container.isPresent storage = .ok true storage ∧
      ∃ listed, container.list "" true storage = .ok listed storage ∧
        listed.get? "dir" = some { marked with kind := .folder } ∧
        listed.get? "dir/sub" = some ObjectProperties.folder ∧
        (container.object "dir/sub/" .file).isPresent storage = .ok true storage := by
  intro account marked history storage container
  have isThere : (storage.store account .blobFs).contains "c" = true := by decide +kernel
  have there : container.isPresent storage = .ok true storage := by
    rw [ContainerHandle.is_present_on_memory, isThere]
  obtain ⟨listed, ran, views⟩ :=
    views_agree (.ofDirectories ⟨0⟩ []) history account .blobFs "c" there
  have late : ((storage.store account .blobFs).get? "c").bind (·.objects.get? "dir") =
      some ⟨{ marked with kind := .folder }, []⟩ := by
    decide +kernel
  have implied : ((storage.store account .blobFs).get? "c").bind
      (·.objectProperties? true "dir/sub") = some ObjectProperties.folder := by
    decide +kernel
  obtain ⟨stored, found, held⟩ := Option.bind_eq_some_iff.mp late
  rw [found, Option.bind_some] at implied
  obtain ⟨_, _, _, _, kept⟩ := views "dir" .folder (by decide)
  obtain ⟨_, seen, _, shown, _⟩ := views "dir/sub/" .file (by decide)
  have read := (ObjectHandle.properties_ok_iff found "dir/sub" .file _).mpr implied
  exact ⟨there, listed, ran, kept stored _ found held, (shown _).mpr read,
    seen.mpr ⟨_, read⟩⟩

end StorageScenario
