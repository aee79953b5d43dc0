import StorageScenario.Proofs.Addressing
import StorageScenario.Proofs.CleanupRun

/-!
What a deletion leaves. The object goes, and all that is neither it nor below it stays. In a
hierarchical service all below it goes too, unless a file was stored at the path. But a file
does not keep other objects from being put below it: these stay when it goes and make a
folder of its path, so that something is still found there.
-/

namespace StorageScenario

open ObjectPath Work

namespace StoredContainer

variable (container : StoredContainer) (hierarchical : Bool) {path : String}

def holdsFile (path : String) : Bool :=
  (container.objects.get? path).any fun object => object.properties.kind = .file

theorem remove_object_objects (notRoot : path ≠ "") :
    (container.removeObject hierarchical path).objects =
      if hierarchical && !container.holdsFile path then
        (container.objects.erase path).filter fun key _ => !Text.startsWith key (below path)
      else container.objects.erase path := by
  unfold removeObject holdsFile
  rw [if_neg notRoot, apply_ite StoredContainer.objects]
  cases container.objects.get? path with
  | none => rfl
  | some object => cases kind : object.properties.kind <;> simp [kind]

theorem remove_object_get? (notRoot : path ≠ "") (other : String) :
    (container.removeObject hierarchical path).objects.get? other =
      if other = path then none
      else if hierarchical && !container.holdsFile path && Text.startsWith other (below path) then
        none
      else container.objects.get? other := by
  rw [container.remove_object_objects hierarchical notRoot, apply_ite (Table.get? · other),
    Table.get?_filter _ fun key => !Text.startsWith key (below path), Table.get?_erase]
  by_cases here : other = path
  · simp [here]
  · cases hierarchical <;> cases container.holdsFile path <;>
      cases Text.startsWith other (below path) <;> simp [here]

/-- Below the path, a removal leaves a folder only if it leaves all that is there. -/
theorem implicit_after_removal (notRoot : path ≠ "") :
    (container.removeObject hierarchical path).isImplicitFolder path =
      ((!hierarchical || container.holdsFile path) && container.isImplicitFolder path) := by
  have stays : ∀ key, Text.startsWith key (below path) →
      (key ∈ (container.removeObject hierarchical path).objects.keys ↔
        (!hierarchical || container.holdsFile path) ∧ key ∈ container.objects.keys) := by
    intro key begins
    rw [Table.mem_keys_iff, Table.mem_keys_iff, container.remove_object_get? hierarchical notRoot,
      if_neg (not_below_itself begins)]
    cases hierarchical <;> cases container.holdsFile path <;> simp [begins]
  unfold isImplicitFolder
  rw [Bool.eq_iff_iff, Bool.and_eq_true_iff, List.any_eq_true, List.any_eq_true]
  constructor
  · rintro ⟨key, member, begins⟩
    obtain ⟨all, wasThere⟩ := (stays key begins).mp member
    exact ⟨all, key, wasThere, begins⟩
  · rintro ⟨all, key, wasThere, begins⟩
    exact ⟨key, (stays key begins).mpr ⟨all, wasThere⟩, begins⟩

theorem shown_after_removal (notRoot : path ≠ "") :
    (container.removeObject hierarchical path).objectProperties? hierarchical path =
      if hierarchical && container.holdsFile path && container.isImplicitFolder path then
        some ObjectProperties.folder
      else none := by
  rw [object_properties_below hierarchical notRoot,
    container.remove_object_get? hierarchical notRoot, if_pos rfl,
    container.implicit_after_removal hierarchical notRoot]
  cases hierarchical <;> simp

end StoredContainer

namespace ServiceStore

variable (store : ServiceStore) (name path : String)

def holdsFile : Bool :=
  (store.objectAt? name path).any fun object => object.properties.kind = .file

def holdsBelow : Bool := (store.get? name).any (·.isImplicitFolder path)

end ServiceStore

namespace ObjectHandle

variable (account : Account) (location : Location) (name path : String) (kind : EntityKind)
  (storage : Storage)

theorem delete_becomes :
    ∃ after, (ObjectHandle.mk ⟨.memory account location, name⟩ path kind).delete storage =
        .ok () after ∧
      storage.Becomes account location name
        ((storage.container? account location name).map
          (·.removeObject location.isHierarchical path)) after := by
  have ran := delete_on_memory account location name storage path kind
  cases found : storage.container? account location name with
  | none =>
      rw [show (storage.store account location).get? name = none from found] at ran
      exact ⟨_, ran, Storage.becomes_same found⟩
  | some stored =>
      rw [show (storage.store account location).get? name = some stored from found] at ran
      exact ⟨_, ran, Storage.becomes_insert _⟩

end ObjectHandle

/-- A deletion succeeds in any storage. Afterwards nothing is found at the path, unless the
service is hierarchical and stored a file there and something below: then what is below makes
a folder of the path. Of everything else, what is below goes with the object in a hierarchical
service that stored no file there, and the rest stays as it was. -/
theorem deletion_effect (storage : Storage) (account : Account) (location : Location)
    (name path : String) (kind : EntityKind) (notRoot : clean path ≠ "") :
    let object := (ContainerHandle.mk (.memory account location) name).object path kind
    let store := storage.store account location
    let fileStored := store.holdsFile name (clean path)
    let leavesFolder :=
      location.isHierarchical && fileStored && store.holdsBelow name (clean path)
    ∃ after, object.delete storage = .ok () after ∧
      object.isPresent after = .ok leavesFolder after ∧
      object.properties after =
        (if leavesFolder then .ok ObjectProperties.folder after
        else .error (.notFound object.canonicalName) after) ∧
      (∀ key, (after.store account location).objectAt? name key =
        if key = clean path then none
        else if location.isHierarchical && !fileStored &&
            Text.startsWith key (below (clean path)) then none
        else store.objectAt? name key) ∧
      (∀ other, other ≠ name →
        (after.store account location).get? other = store.get? other) ∧
      storage.SameElsewhere account location after := by
  intro object store fileStored leavesFolder
  obtain ⟨after, ran, elsewhere, here⟩ :=
    ObjectHandle.delete_becomes account location name (clean path) kind storage
  have removed : after.container? account location name = (store.get? name).map
      (·.removeObject location.isHierarchical (clean path)) := by
    rw [here name, if_pos rfl]
    rfl
  have shown : (after.container? account location name).bind
      (·.objectProperties? location.isHierarchical (clean path)) =
        if leavesFolder then some ObjectProperties.folder else none := by
    rw [removed, Option.bind_map]
    change _ = if location.isHierarchical && Option.any _ ((store.get? name).bind _) &&
      (store.get? name).any _ then _ else _
    cases store.get? name with
    | none => simp
    | some stored => exact stored.shown_after_removal location.isHierarchical notRoot
  have present := ObjectHandle.is_present_shown account location name (clean path) kind after
  rw [shown] at present
  refine ⟨after, ran, ?present, ?properties, ?objects, ?others, elsewhere⟩
  case present =>
    exact present.trans (by cases leavesFolder <;> rfl)
  case properties =>
    split
    · rename_i leaves
      rw [if_pos leaves] at shown
      exact ObjectHandle.properties_shown_iff.mpr shown
    · rename_i leavesNothing
      rw [if_neg leavesNothing] at shown
      exact ObjectHandle.properties_not_shown account location name (clean path) kind after shown
  case objects =>
    intro key
    change (after.container? account location name).bind _ = if key = clean path then none
      else if location.isHierarchical && !Option.any _ ((store.get? name).bind _) && _ then _
      else (store.get? name).bind _
    rw [removed, Option.bind_map]
    cases store.get? name with
    | none => simp
    | some stored => exact stored.remove_object_get? location.isHierarchical notRoot key
  case others =>
    intro other apart
    have same := here other
    rwa [if_neg apart] at same

/-- A file that has another below it: once it is deleted its path is a folder, and once that
is deleted too nothing is left of either. -/
theorem deletion_effect_file_above_file :
    let account : Account := ⟨0, "account", .hierarchicalNamespace⟩
    let history : List ServiceCall :=
      [⟨account, .blobFs, .createContainer "c" {}⟩,
        ⟨account, .blobFs, .createObject "c" "a/b" .file (.zeros 0) {}⟩,
        ⟨account, .blobFs, .createObject "c" "a" .file (.zeros 0) {}⟩]
    let storage := (Storage.fresh (.ofDirectories ⟨0⟩ [])).replay history
    let object := (ContainerHandle.mk (.memory account .blobFs) "c").object "/a/" .file
    clean "/a/" ≠ "" ∧ ∃ between after, object.delete storage = .ok () between ∧
      object.isPresent between = .ok true between ∧
      object.properties between = .ok ObjectProperties.folder between ∧
      ((between.store account .blobFs).objectAt? "c" "a/b").isSome ∧
      object.delete between = .ok () after ∧ object.isPresent after = .ok false after ∧
      (after.store account .blobFs).objectAt? "c" "a/b" = none := by
  intro account history storage object
  have isClean : clean "/a/" = "a" := by decide +kernel
  have notRoot : clean "/a/" ≠ "" := by rw [isClean]; decide
  have isFile : (storage.store account .blobFs).holdsFile "c" (clean "/a/") = true := by
    rw [isClean]
    decide +kernel
  have isAbove : (storage.store account .blobFs).holdsBelow "c" (clean "/a/") = true := by
    rw [isClean]
    decide +kernel
  have isHeld : ((storage.store account .blobFs).objectAt? "c" "a/b").isSome := by decide +kernel
  have isBelow : Text.startsWith "a/b" (below (clean "/a/")) = true := by
    rw [isClean]
    decide +kernel
  obtain ⟨between, ran, present, shown, kept, _⟩ :=
    deletion_effect storage account .blobFs "c" "/a/" .file notRoot
  obtain ⟨after, ranAgain, gone, _, taken, _⟩ :=
    deletion_effect between account .blobFs "c" "/a/" .file notRoot
  rw [isFile, isAbove] at present shown
  have noFile : (between.store account .blobFs).holdsFile "c" (clean "/a/") = false := by
    unfold ServiceStore.holdsFile
    rw [kept, if_pos rfl]
    rfl
  rw [noFile] at gone
  have keptBelow := kept "a/b"
  have takenBelow := taken "a/b"
  rw [if_neg (not_below_itself isBelow), isFile, if_neg (by simp)] at keptBelow
  rw [if_neg (not_below_itself isBelow), noFile, isBelow, if_pos (by rfl)] at takenBelow
  rw [← keptBelow] at isHeld
  exact ⟨notRoot, between, after, ran, present, shown, isHeld, ranAgain, gone, takenBelow⟩

end StorageScenario
