import StorageScenario.Proofs.CreationSteps
import StorageScenario.Proofs.DiskContainers
import StorageScenario.Proofs.FolderListing

/-!
Trees of objects that are created on disk and on an emulated account. The disk has real
directories where the account has only the paths of stored objects. After the same
creations both show entities of the same kinds under the same names, as long as the disk
takes all of them and the bodies can be read that the disk does not look at.
-/

namespace StorageScenario

open DiskPath ObjectPath FileTree Work

structure Making where
  path : String
  kind : EntityKind
  body : Body
  properties : ObjectProperties

def ContainerHandle.createAll (container : ContainerHandle) (makings : List Making) :
    Access Unit :=
  makings.forM fun making =>
    (container.object making.path making.kind).create making.body making.properties

/-- A directory and a container of an account show the same kinds under the same names. -/
structure ShowsSame (ground : Node) (stored : StoredContainer) : Prop where
  clean : stored.CleanKeys
  kinds : ∀ {names}, names ≠ [] → AreNames names →
    ground.kindAt? names = stored.kindAt? names

namespace ShowsSame

variable {ground later : Node} {stored : StoredContainer} {names : List String}
  {kind : EntityKind}

theorem empty {mode : UInt32} {modified : Instant} (nothing : stored.objects = ∅) :
    ShowsSame (.directory mode modified []) stored := by
  obtain ⟨_, _, objects⟩ := stored
  subst nothing
  refine ⟨fun _ isKey => absurd isKey List.not_mem_nil, ?_⟩
  intro names nonempty proper
  obtain ⟨name, rest, rfl⟩ := List.exists_cons_of_ne_nil nonempty
  unfold StoredContainer.kindAt?
  rw [StoredContainer.object_properties_below true (render_ne_empty nonempty proper)]
  rfl

theorem made (same : ShowsSame ground stored) (nonempty : names ≠ []) (proper : AreNames names)
    (change : Node.Created names kind ground later) {object : StoredObject}
    (ofKind : object.properties.kind = kind) :
    ShowsSame later (stored.putObject (render names) object) where
  clean := StoredContainer.put_object_clean_keys same.clean (clean_render proper) object
  kinds {others} othersSome othersProper := by
    rw [change.shown, StoredContainer.put_object_kind_at? same.clean nonempty proper object
      othersSome othersProper, ofKind, same.kinds othersSome othersProper]
    split
    · rfl
    · rename_i elsewhere
      split
      · rename_i above
        -- What was there already has kept its kind, which is that of a folder now.
        cases held : stored.kindAt? others with
        | none => rfl
        | some before =>
            rw [← same.kinds othersSome othersProper] at held
            have kept := change.kept held
            rw [change.shown, if_neg elsewhere, if_pos above] at kept
            exact kept
      · rfl

theorem root_folder (same : ShowsSame ground stored) (object : StoredObject) :
    ShowsSame ground (stored.putObject "" object) where
  clean := same.clean
  kinds {names} nonempty proper := by
    have below := render_ne_empty nonempty proper
    rw [same.kinds nonempty proper]
    unfold StoredContainer.kindAt?
    rw [StoredContainer.object_properties_below true below,
      StoredContainer.object_properties_below true below]
    rfl

end ShowsSame

section Runs

variable {root name emulated : String} {account : Account} {location : Location} {left : Nat}
  {base : List String} {onDisk made inMemory : Storage} {ground : Node} {stored : StoredContainer}

/-- One creation that the disk takes is taken by the account, and both show the same after it. -/
theorem create_agrees
    (grounds : Grounds (steps (DiskPath.join root name)) left base onDisk.disk ground)
    (found : inMemory.container? account location emulated = some stored)
    (same : ShowsSame ground stored) {making : Making}
    (noMode : making.properties.nfs.fileMode = none)
    (readable : making.kind = .folder ∨ clean making.path = "" → making.body.failure? = none)
    (ran : (ContainerHandle.object ⟨.disk root, name⟩ making.path making.kind).create
      making.body making.properties onDisk = .ok () made) :
    ∃ after later shown,
      (ContainerHandle.object ⟨.memory account location, emulated⟩ making.path
        making.kind).create making.body making.properties inMemory = .ok () after ∧
      Grounds (steps (DiskPath.join root name)) left base made.disk later ∧
      after.container? account location emulated = some shown ∧ ShowsSame later shown := by
  obtain ⟨later, grows, change⟩ := create_on_disk grounds (by simp [noMode]) ran
  have readAll : making.body.failure? = none := by
    rcases change with ⟨atRoot, _⟩ | ⟨_, _, _, ofFile⟩
    · exact readable (Or.inr ((clean_eq_empty_iff _).mpr atRoot))
    · cases kind : making.kind with
      | folder => exact readable (Or.inl kind)
      | file => exact ofFile kind
  have put := ObjectHandle.create_on_memory account location emulated inMemory (clean making.path)
    making.kind found readAll making.properties
  refine ⟨_, later, stored.putObject (clean making.path)
    ⟨StoredContainer.storedProperties location making.kind making.properties,
      making.body.yielded⟩, put, grows.toGrounds, ?_, ?_⟩
  · exact ((Storage.becomes_insert _).here emulated).trans (if_pos rfl)
  · rcases change with ⟨atRoot, rfl⟩ | ⟨nonempty, change, _⟩
    · rw [(clean_eq_empty_iff _).mpr atRoot]
      exact same.root_folder _
    · rw [clean_eq_render]
      exact same.made nonempty (names_are_names _) change
        (StoredContainer.stored_properties_kind _ _ _)

theorem creations_agree {makings : List Making}
    (grounds : Grounds (steps (DiskPath.join root name)) left base onDisk.disk ground)
    (found : inMemory.container? account location emulated = some stored)
    (same : ShowsSame ground stored)
    (noMode : ∀ making ∈ makings, making.properties.nfs.fileMode = none)
    (readable : ∀ making ∈ makings,
      making.kind = .folder ∨ clean making.path = "" → making.body.failure? = none)
    (ran : (ContainerHandle.mk (.disk root) name).createAll makings onDisk = .ok () made) :
    ∃ after later shown,
      (ContainerHandle.mk (.memory account location) emulated).createAll makings inMemory =
        .ok () after ∧
      Grounds (steps (DiskPath.join root name)) left base made.disk later ∧
      after.container? account location emulated = some shown ∧ ShowsSame later shown := by
  induction makings generalizing onDisk inMemory ground stored with
  | nil =>
      cases ran
      exact ⟨inMemory, ground, stored, rfl, grounds, found, same⟩
  | cons making rest ih =>
      obtain ⟨_, between, first, others⟩ := bind_ok_iff.mp ran
      obtain ⟨middle, here, shown, ranFirst, groundsHere, foundHere, sameHere⟩ :=
        create_agrees grounds found same (noMode making List.mem_cons_self)
          (readable making List.mem_cons_self) first
      obtain ⟨after, later, last, ranRest, further⟩ :=
        ih groundsHere foundHere sameHere
          (fun other member => noMode other (List.mem_cons_of_mem making member))
          (fun other member => readable other (List.mem_cons_of_mem making member)) others
      exact ⟨after, later, last, bind_ok_iff.mpr ⟨(), middle, ranFirst, ranRest⟩, further⟩

end Runs

section Views

variable {ground : Node} {stored : StoredContainer} {folder : List String} {recursive : Bool}
  {onDisk inMemory : Table ObjectProperties}

/-- Two listings show the same when one is a look-up of names in a directory and the other
a look-up in a container that shows the same. Both name what they list alike. -/
theorem ShowsSame.listings (same : ShowsSame ground stored) (tidy : ground.Tidy)
    (folderNames : AreNames folder) (naming : List String → String)
    (isDisk : ∀ key properties, onDisk.get? key = some properties ↔
      ∃ deeper node, InReach recursive deeper ∧ ground.at? (folder ++ deeper) = some node ∧
        key = naming deeper ∧ properties = DiskResources.nodeProperties node)
    (isMemory : ∀ key properties, inMemory.get? key = some properties ↔
      ∃ deeper, InReach recursive deeper ∧ AreNames deeper ∧ key = naming deeper ∧
        stored.objectProperties? true (render (folder ++ deeper)) = some properties) :
    inMemory.kinds = onDisk.kinds := by
  apply Table.eq_of_get?
  intro key
  apply Option.ext
  intro kind
  rw [Table.kinds_get?_iff, Table.kinds_get?_iff]
  constructor
  · rintro ⟨properties, listed, isKind⟩
    obtain ⟨deeper, reach, deeperNames, isKey, shown⟩ := (isMemory key properties).mp listed
    have inMemory : stored.kindAt? (folder ++ deeper) = some kind := by
      unfold StoredContainer.kindAt?
      rw [shown, Option.map_some, isKind]
    rw [← same.kinds (by simp [reach.1]) (are_names_append.mpr ⟨folderNames, deeperNames⟩)]
      at inMemory
    obtain ⟨node, stands, isKind⟩ := Option.map_eq_some_iff.mp inMemory
    exact ⟨_, (isDisk key _).mpr ⟨deeper, node, reach, stands, isKey, rfl⟩, isKind⟩
  · rintro ⟨properties, listed, isKind⟩
    obtain ⟨deeper, node, reach, stands, isKey, rfl⟩ := (isDisk key properties).mp listed
    have proper := (Node.tidy_at tidy stands).1
    have onDisk : ground.kindAt? (folder ++ deeper) = some kind := by
      unfold Node.kindAt?
      rw [stands, Option.map_some]
      exact congrArg some isKind
    rw [same.kinds (by simp [reach.1]) proper] at onDisk
    obtain ⟨shown, isShown, ofKind⟩ := Option.map_eq_some_iff.mp onDisk
    exact ⟨shown, (isMemory key shown).mpr
      ⟨deeper, reach, (are_names_append.mp proper).2, isKey, isShown⟩, ofKind⟩

theorem ShowsSame.present (same : ShowsSame ground stored) (path : String) :
    (stored.objectProperties? true (ObjectPath.clean path)).isSome =
      (ground.at? (ObjectPath.names path)).isSome := by
  by_cases atRoot : ObjectPath.names path = []
  · rw [(clean_eq_empty_iff path).mpr atRoot, atRoot]
    rfl
  · have kinds := congrArg Option.isSome (same.kinds atRoot (names_are_names path))
    rw [Node.kindAt?, StoredContainer.kindAt?, Option.isSome_map, Option.isSome_map] at kinds
    rw [clean_eq_render, kinds]

end Views

theorem new_directory_is_empty :
    let tree : FileTree := .ofDirectories ⟨0⟩ ["r", "c"]
    ∃ mode modified, Disk.metadata (ContainerHandle.mk (.disk "/r") "c").uri tree =
      .ok (.directory mode modified []) tree := by
  intro tree
  have isEmpty : ((Disk.metadata (ContainerHandle.mk (.disk "/r") "c").uri).run' tree).map
      (fun node => node.isDirectory && node.entries.isEmpty) = some true := by
    decide +kernel
  obtain ⟨node, ran, holds⟩ := Option.map_eq_some_iff.mp isEmpty
  obtain ⟨isDirectory, nothing⟩ := Bool.and_eq_true_iff.mp holds
  obtain ⟨after, found⟩ := ok_of_run' ran
  cases (Disk.metadata_looks _).of_ok found
  cases node with
  | directory mode modified entries =>
      cases List.isEmpty_iff.mp nothing
      exact ⟨mode, modified, found⟩
  | file _ _ _ => cases isDirectory
  | link _ _ => cases isDirectory

/-- Objects that the disk takes into an empty directory are taken by an empty container of
an emulated service with folders, and whatever can be told of the directory after that is
told of the container as well. A body has to be readable where the disk does not read it,
which is where a folder or the root folder is made. -/
theorem created_trees_agree (root name emulated : String) (onDisk made inMemory : Storage)
    (account : Account) (location : Location) (stored : StoredContainer)
    (makings : List Making) (mode : UInt32) (modified : Instant) :
    let disk : ContainerHandle := ⟨.disk root, name⟩
    let memory : ContainerHandle := ⟨.memory account location, emulated⟩
    location.isHierarchical = true →
    Disk.metadata disk.uri onDisk.disk = .ok (.directory mode modified []) onDisk.disk →
    inMemory.container? account location emulated = some stored → stored.objects = ∅ →
    (∀ making ∈ makings, making.properties.nfs.fileMode = none) →
    (∀ making ∈ makings,
      making.kind = .folder ∨ clean making.path = "" → making.body.failure? = none) →
    disk.createAll makings onDisk = .ok () made →
    ∃ after, memory.createAll makings inMemory = .ok () after ∧
      ∀ path kind recursive,
        (∀ present seen, (disk.object path kind).isPresent made = .ok present seen →
          (memory.object path kind).isPresent after = .ok present after) ∧
        (∀ listed seen, disk.list path recursive made = .ok listed seen →
          ∃ shown, memory.list path recursive after = .ok shown after ∧
            shown.kinds = listed.kinds) ∧
        ∀ listed seen, (disk.object path kind).children recursive made = .ok listed seen →
          ∃ shown, (memory.object path kind).children recursive after = .ok shown after ∧
            shown.kinds = listed.kinds := by
  intro disk memory hierarchical isThere found nothing noMode readable ran
  have isTidy : Node.Tidy (.directory mode modified []) := .directory (by simp) (by simp) (by simp)
  obtain ⟨nonempty, left, base, grounds⟩ := Disk.grounds_of_metadata isThere rfl isTidy
  obtain ⟨after, later, last, taken, groundsAfter, foundAfter, same⟩ :=
    creations_agree grounds found (ShowsSame.empty nothing) noMode readable ran
  refine ⟨after, taken, ?_⟩
  intro path kind recursive
  have proper := names_are_names path
  refine ⟨?present, ?list, ?children⟩
  case present =>
    intro present _ told
    have shown := ObjectHandle.is_present_shown account location emulated (clean path) kind after
    rw [foundAfter, Option.bind_some, hierarchical, same.present] at shown
    rw [object_is_present_inside groundsAfter nonempty told]
    exact shown
  case list =>
    intro listed _ told
    refine ⟨_, ContainerHandle.list_on_memory account location emulated after foundAfter path
      recursive, ?_⟩
    have isDisk := DiskResources.list_objects_inside groundsAfter rfl nonempty told
    refine same.listings groundsAfter.tidy proper _ isDisk ?_
    intro key properties
    rw [hierarchical, StoredContainer.list, if_pos rfl, clean_eq_render]
    refine (StoredContainer.listed_inside_iff same.clean proper key properties).trans ?_
    refine exists_congr fun deeper => and_congr_right fun _ => and_congr_right fun _ => ?_
    exact and_congr_right fun isKey => by rw [isKey]
  case children =>
    intro listed _ told
    refine ⟨_,
      StoredResources.container_bind account location emulated after _ foundAfter _, ?_⟩
    have isDisk := DiskResources.scan_inside groundsAfter (object_goes_into root name path kind)
      (object_uri_ne_empty nonempty path kind) told
    refine same.listings groundsAfter.tidy proper _ isDisk ?_
    change ∀ key properties, (last.listChildren (clean path) recursive).get? key = _ ↔ _
    rw [clean_eq_render]
    exact StoredContainer.list_children_iff same.clean proper

/-- A file that is replaced, with folders that are made later over its own, shows the same in
both. -/
theorem created_trees_agree_late_folders :
    let account : Account := ⟨0, "account", .standard⟩
    let makings : List Making :=
      [⟨"a//b/x", .file, .buffered [1], {}⟩, ⟨"a/b/", .folder, .zeros 0, {}⟩,
        ⟨"./a", .folder, .zeros 0, {}⟩, ⟨"a/b/x", .file, .buffered [2], {}⟩,
        ⟨"/", .folder, .zeros 0, {}⟩]
    let storage := (Storage.fresh (.ofDirectories ⟨0⟩ ["r", "c"])).replay
      [⟨account, .fileNfs, .createContainer "e" {}⟩]
    let disk : ContainerHandle := ⟨.disk "/r", "c"⟩
    let memory : ContainerHandle := ⟨.memory account .fileNfs, "e"⟩
    ∃ made after listed shown seen, disk.createAll makings storage = .ok () made ∧
      memory.createAll makings storage = .ok () after ∧
      disk.list "a/" true made = .ok listed seen ∧
      memory.list "a/" true after = .ok shown after ∧ shown.kinds = listed.kinds ∧
      listed.keys = ["a/b", "a/b/x"] := by
  intro account makings storage disk memory
  obtain ⟨mode, modified, isThere⟩ := new_directory_is_empty
  have isListed : ((do disk.createAll makings; disk.list "a/" true : Access _).run' storage).map
      (·.keys) = some ["a/b", "a/b/x"] := by
    decide +kernel
  have isEmpty : (storage.container? account .fileNfs "e").map (·.objects) = some ∅ := by
    decide +kernel
  obtain ⟨stored, found, nothing⟩ := Option.map_eq_some_iff.mp isEmpty
  obtain ⟨listed, isSome, keys⟩ := Option.map_eq_some_iff.mp isListed
  obtain ⟨seen, ran⟩ := ok_of_run' isSome
  obtain ⟨_, made, ranAll, told⟩ := bind_ok_iff.mp ran
  obtain ⟨after, taken, agree⟩ := created_trees_agree "/r" "c" "e" storage made storage account
    .fileNfs stored makings mode modified rfl isThere found nothing (by simp [makings])
    (by simp [makings, Body.failure?]) ranAll
  obtain ⟨_, lists, _⟩ := agree "a/" .folder true
  obtain ⟨shown, ranShown, same⟩ := lists listed seen told
  exact ⟨made, after, listed, shown, seen, ranAll, taken, told, ranShown, same, keys⟩

/-- Where a folder is made the disk does not read the body, and an account refuses one that
cannot be read. -/
theorem torn_folder_taken_by_disk_only :
    let account : Account := ⟨0, "account", .standard⟩
    let makings : List Making := [⟨"dir", .folder, .declared 1 [] (some "torn"), {}⟩]
    let storage := (Storage.fresh (.ofDirectories ⟨0⟩ ["r", "c"])).replay
      [⟨account, .file, .createContainer "c" {}⟩]
    let disk : ContainerHandle := ⟨.disk "/r", "c"⟩
    let memory : ContainerHandle := ⟨.memory account .file, "c"⟩
    Location.file.isHierarchical = true ∧
      (∃ mode modified,
        Disk.metadata disk.uri storage.disk = .ok (.directory mode modified []) storage.disk) ∧
      (storage.container? account .file "c").map (·.objects) = some ∅ ∧
      (∀ making ∈ makings, making.properties.nfs.fileMode = none) ∧
      (∃ made, disk.createAll makings storage = .ok () made) ∧
      ∀ after, memory.createAll makings storage ≠ .ok () after := by
  intro account makings storage disk memory
  have isMade : (disk.createAll makings).run' storage = some () := by
    decide +kernel
  refine ⟨rfl, new_directory_is_empty, by decide +kernel, by simp [makings],
    ok_of_run' isMade, ?_⟩
  intro after ran
  obtain ⟨_, _, first, _⟩ := bind_ok_iff.mp ran
  have torn : (Body.declared 1 [] (some "torn")).failure? = some (.unreadableBody "torn") := rfl
  have refused := ObjectHandle.create_unreadable_on_memory account .file "c" storage
    (clean "dir") .folder torn {}
  cases refused.symm.trans first

end StorageScenario
