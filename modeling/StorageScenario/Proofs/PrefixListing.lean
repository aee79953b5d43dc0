import StorageScenario.Proofs.ListingLookup
import StorageScenario.Proofs.StoreHistory

/-!
Listings of a flat service. A recursive listing is a search by the beginning of names: it
shows every object whose path begins with the given text, with the properties that are
stored, and no folder. Only the object whose path is the whole text is left out.
-/

namespace StorageScenario

open ObjectPath

namespace StoredContainer

theorem shows_itself_iff (start path : String) :
    showsItself start true path ↔ Text.startsWith path start ∧ path ≠ start := by
  unfold showsItself Text.startsWith
  cases split : Text.remainder? start path with
  | none => simp
  | some remainder =>
      rw [Text.remainder_eq_some_iff] at split
      subst split
      have same : start ++ remainder = start ↔ remainder = "" := by
        rw [← String.toList_inj, ← String.toList_inj, String.toList_append]
        simp
      simp [same]

theorem list_flat_get? (container : StoredContainer) (start path : String) :
    (container.list false start true).get? path =
      if Text.startsWith path start ∧ path ≠ start then
        (container.objects.get? path).map (·.properties)
      else none := by
  have noFolder : (container.objects.keys.any fun key =>
      path ∈ foldersOnWay start true false key) = false := by
    apply List.any_eq_false.mpr
    intro key _
    unfold foldersOnWay
    cases Text.remainder? start key <;> simp
  change (container.listFrom start true false).get? path = _
  rw [list_from_get?, noFolder]
  simp only [shows_itself_iff, Bool.false_eq_true, if_false, Option.or_none]
  split <;> rfl

end StoredContainer

/-- In a blob service, the listing of a beginning of names shows exactly the stored objects
whose paths begin with it and go on, each with its stored properties. So it is a search by
prefix if and only if no object has the whole beginning as its path. -/
theorem flat_listing_of_prefix (storage : Storage) (account : Account) (name start : String) :
    let container : ContainerHandle := ⟨.memory account .blob, name⟩
    container.isPresent storage = .ok true storage →
      ∃ stored listed, (storage.store account .blob).get? name = some stored ∧
        container.list start true storage = .ok listed storage ∧
        (∀ path properties, listed.get? path = some properties ↔
          Text.startsWith path start ∧ path ≠ start ∧
            ∃ object, stored.objects.get? path = some object ∧
              object.properties = properties) ∧
        ((∀ path, path ∈ listed.keys ↔
            path ∈ stored.objects.keys ∧ Text.startsWith path start) ↔
          start ∉ stored.objects.keys) := by
  intro container there
  have isThere : ((storage.store account .blob).get? name).isSome := by
    rw [ContainerHandle.is_present_on_memory] at there
    exact (EStateM.Result.ok.inj there).1
  obtain ⟨stored, found⟩ := Option.isSome_iff_exists.mp isThere
  have shown := stored.list_flat_get? start
  have listedKeys : ∀ path, path ∈ (stored.list false start true).keys ↔
      path ∈ stored.objects.keys ∧ Text.startsWith path start ∧ path ≠ start := by
    intro path
    rw [Table.mem_keys_iff, Table.mem_keys_iff, shown]
    by_cases inside : Text.startsWith path start ∧ path ≠ start
    · simp [inside]
    · rw [if_neg inside]
      simp only [Option.isSome_none, Bool.false_eq_true, false_iff]
      exact fun both => inside both.2
  refine ⟨stored, _, found, ContainerHandle.list_on_memory account .blob name storage found start
    true, ?entries, ?complete⟩
  case entries =>
    intro path properties
    change (stored.list false start true).get? path = some properties ↔ _
    rw [shown, Option.ite_none_right_eq_some, Option.map_eq_some_iff, and_assoc]
  case complete =>
    change (∀ path, path ∈ (stored.list false start true).keys ↔ _) ↔ _
    simp only [listedKeys]
    have startsItself : Text.startsWith start start := (starts_with_iff start start).mpr
      (List.prefix_refl _)
    constructor
    · intro complete member
      exact ((complete start).mpr ⟨member, startsItself⟩).2.2 rfl
    · intro absent path
      constructor
      · rintro ⟨member, begins, _⟩
        exact ⟨member, begins⟩
      · rintro ⟨member, begins⟩
        exact ⟨member, begins, fun same => absent (same ▸ member)⟩

/-- Where `dir` is an object, the listing of `dir` shows what is below it and what only
begins like it, but not the object itself. -/
theorem flat_listing_of_prefix_whole_name :
    let account : Account := ⟨0, "account", .standard⟩
    let history : List ServiceCall :=
      [⟨account, .blob, .createContainer "c" {}⟩,
        ⟨account, .blob, .createObject "c" "dir" .file (.zeros 0) {}⟩,
        ⟨account, .blob, .createObject "c" "dir/a" .file (.zeros 0) {}⟩,
        ⟨account, .blob, .createObject "c" "direct" .file (.zeros 0) {}⟩,
        ⟨account, .blob, .createObject "c" "other" .file (.zeros 0) {}⟩]
    let storage := (Storage.fresh (.ofDirectories ⟨0⟩ [])).replay history
    let container : ContainerHandle := ⟨.memory account .blob, "c"⟩
    container.isPresent storage = .ok true storage ∧
      ∃ stored listed, (storage.store account .blob).get? "c" = some stored ∧
        container.list "dir" true storage = .ok listed storage ∧
        listed.get? "dir/a" = some { blob := { blobType := some .blockBlob } } ∧
        listed.get? "direct" = some { blob := { blobType := some .blockBlob } } ∧
        "other" ∉ listed.keys ∧ "dir" ∉ listed.keys ∧ "dir" ∈ stored.objects.keys := by
  intro account history storage container
  have isThere : (storage.store account .blob).contains "c" = true := by decide +kernel
  have there : container.isPresent storage = .ok true storage := by
    rw [ContainerHandle.is_present_on_memory, isThere]
  obtain ⟨stored, listed, found, ran, entries, _⟩ :=
    flat_listing_of_prefix storage account "c" "dir" there
  have held : ∀ path ∈ ["dir", "dir/a", "direct"],
      (((storage.store account .blob).get? "c").bind (·.objects.get? path)).map (·.properties) =
        some { blob := { blobType := some .blockBlob } } := by
    decide +kernel
  have shown : ∀ path ∈ ["dir", "dir/a", "direct"],
      Text.startsWith path "dir" → path ≠ "dir" →
      listed.get? path = some { blob := { blobType := some .blockBlob } } := by
    intro path member begins goesOn
    have isHeld := held path member
    rw [found, Option.bind_some, Option.map_eq_some_iff] at isHeld
    exact (entries path _).mpr ⟨begins, goesOn, isHeld⟩
  have hidden : ∀ path, ¬ (Text.startsWith path "dir" ∧ path ≠ "dir") →
      path ∉ listed.keys := by
    intro path outside member
    rw [Table.mem_keys_iff, Option.isSome_iff_exists] at member
    obtain ⟨properties, isListed⟩ := member
    obtain ⟨begins, goesOn, _⟩ := (entries path properties).mp isListed
    exact outside ⟨begins, goesOn⟩
  refine ⟨there, stored, listed, found, ran,
    shown "dir/a" (by simp) (by decide +kernel) (by decide),
    shown "direct" (by simp) (by decide +kernel) (by decide), hidden "other" (by decide +kernel),
    hidden "dir" (by simp), ?_⟩
  have isHeld := held "dir" (by simp)
  rw [found, Option.bind_some, Option.map_eq_some_iff] at isHeld
  rw [Table.mem_keys_iff, Option.isSome_iff_exists]
  exact isHeld.imp fun _ both => both.1

end StorageScenario
