import StorageScenario.Proofs.FolderListing

/-!
Listings of a hierarchical service as parts of one tree. The listing of everything decides
all others: a folder lists what is inside it, one name deep or all the way, with the same
properties, and its children are the same entries under paths relative to it.
-/

namespace StorageScenario

open ObjectPath

theorem Table.keys_filter {α : Type} (table : Table α) (keep : String → Bool) :
    (table.filter fun key _ => keep key).keys = table.keys.filter keep :=
  List.filter_map.symm

namespace ObjectPath

/-- Whether a path goes on from a folder, by any number of names but none. -/
def isInside (folder path : String) : Bool :=
  names folder <+: names path ∧ names folder ≠ names path

def isDirectlyInside (folder path : String) : Bool :=
  names folder <+: names path ∧ (names path).length = (names folder).length + 1

section Deeper

variable {folder : String} {deeper : List String}

theorem names_deeper (deeperNames : AreNames deeper) :
    names (render (names folder ++ deeper)) = names folder ++ deeper :=
  names_render (are_names_append.mpr ⟨names_are_names folder, deeperNames⟩)

theorem is_inside_iff (path : String) :
    isInside folder path = true ↔
      ∃ deeper, deeper ≠ [] ∧ names path = names folder ++ deeper := by
  unfold isInside
  rw [decide_eq_true_iff]
  constructor
  · rintro ⟨⟨deeper, split⟩, further⟩
    refine ⟨deeper, ?_, split.symm⟩
    rintro rfl
    exact further (by rw [← split, List.append_nil])
  · rintro ⟨deeper, nonempty, split⟩
    rw [split]
    exact ⟨List.prefix_append _ _, by simp [nonempty]⟩

theorem is_directly_inside_iff (path : String) :
    isDirectlyInside folder path = true ↔
      ∃ deeper, deeper.length = 1 ∧ names path = names folder ++ deeper := by
  unfold isDirectlyInside
  rw [decide_eq_true_iff]
  constructor
  · rintro ⟨⟨deeper, split⟩, single⟩
    refine ⟨deeper, ?_, split.symm⟩
    rw [← split, List.length_append] at single
    omega
  · rintro ⟨deeper, single, split⟩
    rw [split]
    exact ⟨List.prefix_append _ _, by rw [List.length_append, single]⟩

end Deeper

end ObjectPath

namespace StoredContainer

variable {container : StoredContainer} (keysClean : container.CleanKeys)
include keysClean

theorem list_hierarchical_iff (directory : String) (recursive : Bool) (path : String)
    (properties : ObjectProperties) :
    (container.list true directory recursive).get? path = some properties ↔
      ∃ deeper, InReach recursive deeper ∧ AreNames deeper ∧
        path = render (names directory ++ deeper) ∧
          container.objectProperties? true path = some properties := by
  have start : container.list true directory recursive =
      container.listFrom (insideFolder (render (names directory))) recursive true := by
    rw [← clean_eq_render]
    rfl
  rw [start]
  exact listed_inside_iff keysClean (names_are_names directory) path properties

theorem list_inside (directory : String) :
    container.list true directory true =
      (container.list true "" true).filter fun path _ => isInside directory path := by
  apply Table.eq_of_get?
  intro path
  apply Option.ext
  intro properties
  rw [Table.get?_filter _ (isInside directory), Option.ite_none_right_eq_some,
    list_hierarchical_iff keysClean, list_hierarchical_iff keysClean, is_inside_iff]
  constructor
  · rintro ⟨deeper, reach, deeperNames, rfl, shown⟩
    have proper := are_names_append.mpr ⟨names_are_names directory, deeperNames⟩
    refine ⟨⟨deeper, reach.1, names_deeper deeperNames⟩, names directory ++ deeper, ?_,
      proper, rfl, shown⟩
    exact ⟨by simp [reach.1], Or.inl rfl⟩
  · rintro ⟨⟨deeper, nonempty, split⟩, all, reach, allNames, rfl, shown⟩
    rw [names_deeper allNames, names_empty, List.nil_append] at split
    subst split
    exact ⟨deeper, ⟨nonempty, Or.inl rfl⟩, (are_names_append.mp allNames).2, rfl, shown⟩

theorem list_directly_inside (directory : String) :
    container.list true directory false =
      (container.list true directory true).filter fun path _ =>
        isDirectlyInside directory path := by
  apply Table.eq_of_get?
  intro path
  apply Option.ext
  intro properties
  rw [Table.get?_filter _ (isDirectlyInside directory), Option.ite_none_right_eq_some,
    list_hierarchical_iff keysClean, list_hierarchical_iff keysClean, is_directly_inside_iff]
  constructor
  · rintro ⟨deeper, ⟨nonempty, single⟩, deeperNames, rfl, shown⟩
    have isSingle : deeper.length = 1 := single.resolve_left Bool.false_ne_true
    exact ⟨⟨deeper, isSingle, names_deeper deeperNames⟩, deeper, ⟨nonempty, Or.inl rfl⟩,
      deeperNames, rfl, shown⟩
  · rintro ⟨⟨deeper, single, split⟩, further, ⟨nonempty, _⟩, furtherNames, rfl, shown⟩
    rw [names_deeper furtherNames, List.append_cancel_left_eq] at split
    subst split
    exact ⟨further, ⟨nonempty, Or.inr single⟩, furtherNames, rfl, shown⟩

theorem children_are_listed (directory : String) (recursive : Bool) (path : String)
    (properties : ObjectProperties) :
    (container.listChildren (clean directory) recursive).get? path = some properties ↔
      clean path = path ∧
        (container.list true directory recursive).get? (join (clean directory) path) =
          some properties := by
  have sameNames : names (clean directory) = names directory := by
    rw [clean_eq_render, names_render (names_are_names directory)]
  rw [list_hierarchical_iff keysClean]
  conv_lhs => rw [clean_eq_render directory]
  rw [list_children_iff keysClean (names_are_names directory)]
  constructor
  · rintro ⟨deeper, reach, deeperNames, rfl, shown⟩
    rw [join_render _ deeperNames, sameNames]
    exact ⟨clean_render deeperNames, deeper, reach, deeperNames, rfl, shown⟩
  · rintro ⟨isClean, deeper, reach, deeperNames, same, shown⟩
    have joined := join_clean (clean directory) isClean
    rw [sameNames] at joined
    rw [joined] at same shown
    have split : names directory ++ names path = names directory ++ deeper :=
      render_injective (are_names_append.mpr ⟨names_are_names _, names_are_names path⟩)
        (are_names_append.mpr ⟨names_are_names _, deeperNames⟩) same
    rw [List.append_cancel_left_eq] at split
    subst split
    exact ⟨names path, reach, names_are_names path, (render_names isClean).symm, shown⟩

end StoredContainer

/-- After any history of a hierarchical service, the listing of a folder is the part of the
whole listing that is inside the folder, the listing that goes down one name is the part of
that which is directly inside, and the children of the folder are the entries of its listing
at the clean paths that lead to them from the folder. -/
theorem folder_listings (disk : FileTree) (history : List ServiceCall) (account : Account)
    (location : Location) (name directory : String) :
    let storage := (Storage.fresh disk).replay history
    let container : ContainerHandle := ⟨.memory account location, name⟩
    location.isHierarchical → container.isPresent storage = .ok true storage →
      ∃ whole, container.list "" true storage = .ok whole storage ∧
        ∃ listed : Bool → Table ObjectProperties,
          (∀ recursive, container.list directory recursive storage =
            .ok (listed recursive) storage) ∧
          listed true = whole.filter (fun path _ => isInside directory path) ∧
          listed false = (listed true).filter (fun path _ => isDirectlyInside directory path) ∧
          ∀ recursive kind, ∃ children,
            (container.object directory kind).children recursive storage =
              .ok children storage ∧
            ∀ path properties, children.get? path = some properties ↔
              clean path = path ∧
                (listed recursive).get? (join (clean directory) path) = some properties := by
  intro storage container hierarchical there
  have isThere : ((storage.store account location).get? name).isSome := by
    rw [ContainerHandle.is_present_on_memory] at there
    exact (EStateM.Result.ok.inj there).1
  obtain ⟨stored, found⟩ := Option.isSome_iff_exists.mp isThere
  have sound : storage.Sound := Storage.replay_sound (Storage.fresh_sound disk) history
  have keysClean : stored.CleanKeys := (sound account location name stored found).clean
  have lists : ∀ within recursive, container.list within recursive storage =
      .ok (stored.list true within recursive) storage := by
    intro within recursive
    rw [← hierarchical]
    exact ContainerHandle.list_on_memory account location name storage found within recursive
  refine ⟨_, lists "" true, stored.list true directory, lists directory,
    StoredContainer.list_inside keysClean directory,
    StoredContainer.list_directly_inside keysClean directory, ?_⟩
  intro recursive kind
  refine ⟨stored.listChildren (clean directory) recursive, ?_,
    StoredContainer.children_are_listed keysClean directory recursive⟩
  exact StoredResources.container_bind account location name storage _ found _

/-- The folder `a` is listed with what is in it, and with neither the file of its own name nor
the file `a.txt`, which stands between the two in the order of paths. -/
theorem folder_listings_between_siblings :
    let account : Account := ⟨0, "account", .hierarchicalNamespace⟩
    let history : List ServiceCall :=
      [⟨account, .blobFs, .createContainer "c" {}⟩,
        ⟨account, .blobFs, .createObject "c" "a/sub/x" .file (.zeros 0) {}⟩,
        ⟨account, .blobFs, .createObject "c" "a" .file (.zeros 0) {}⟩,
        ⟨account, .blobFs, .createObject "c" "a.txt" .file (.zeros 0) {}⟩,
        ⟨account, .blobFs, .createObject "c" "a/b" .file (.zeros 0) {}⟩]
    let storage := (Storage.fresh (.ofDirectories ⟨0⟩ [])).replay history
    let container : ContainerHandle := ⟨.memory account .blobFs, "c"⟩
    Location.blobFs.isHierarchical ∧ container.isPresent storage = .ok true storage ∧
      ∃ deep near children, container.list "/a/." true storage = .ok deep storage ∧
        deep.keys = ["a/b", "a/sub", "a/sub/x"] ∧
        container.list "/a/." false storage = .ok near storage ∧
        near.keys = ["a/b", "a/sub"] ∧
        (container.object "/a/." .folder).children true storage = .ok children storage ∧
        children.get? "sub" = some ObjectProperties.folder := by
  intro account history storage container
  have isThere : (storage.store account .blobFs).contains "c" = true := by decide +kernel
  have there : container.isPresent storage = .ok true storage := by
    rw [ContainerHandle.is_present_on_memory, isThere]
  obtain ⟨whole, ranWhole, listed, ran, deep, near, below⟩ :=
    folder_listings (.ofDirectories ⟨0⟩ []) history account .blobFs "c" "/a/." rfl there
  obtain ⟨children, ranChildren, entries⟩ := below true .folder
  obtain ⟨stored, found⟩ := Option.isSome_iff_exists.mp isThere
  have isWhole : whole = stored.list true "" true := by
    have shown := ContainerHandle.list_on_memory account .blobFs "c" storage found "" true
    exact (EStateM.Result.ok.inj (ranWhole.symm.trans shown)).1
  have keys : whole.keys = ["a", "a.txt", "a/b", "a/sub", "a/sub/x"] := by
    have computed : ((storage.store account .blobFs).get? "c").map (·.list true "" true |>.keys) =
        some ["a", "a.txt", "a/b", "a/sub", "a/sub/x"] := by
      decide +kernel
    rw [found, Option.map_some, ← isWhole] at computed
    exact Option.some.inj computed
  have deepKeys : (listed true).keys = ["a/b", "a/sub", "a/sub/x"] := by
    rw [deep, Table.keys_filter, keys]
    decide +kernel
  refine ⟨rfl, there, listed true, listed false, children, ran true, deepKeys, ran false, ?_,
    ranChildren, ?_⟩
  · rw [near, Table.keys_filter, deepKeys]
    decide +kernel
  · have folder : ((storage.store account .blobFs).get? "c").bind
        (·.list true "" true |>.get? "a/sub") = some ObjectProperties.folder := by
      decide +kernel
    rw [found, Option.bind_some, ← isWhole] at folder
    have joined : join (clean "/a/.") "sub" = "a/sub" := by decide +kernel
    rw [entries, joined, deep, Table.get?_filter _ (isInside "/a/."), folder]
    decide +kernel

end StorageScenario
