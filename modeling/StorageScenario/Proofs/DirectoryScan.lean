import StorageScenario.Proofs.DirectoryDescent
import StorageScenario.Proofs.DiskListing

/-!
What a scan of a directory yields. A path at which a directory of proper names is found lists
everything in reach below it once, unless a directory that has to be read for that cannot be
read, at which the scan fails. Links in it are listed and not entered.
-/

namespace StorageScenario

open DiskPath ObjectPath Work

namespace Disk

variable {path : String} {tree : FileTree} {directory : Node}

theorem is_present_of_metadata (isThere : metadata path tree = .ok directory tree) :
    isPresent path tree = .ok true tree := by
  unfold isPresent
  rw [isThere]

theorem fits_of_metadata (isThere : metadata path tree = .ok directory tree) : PathFits path := by
  obtain ⟨_, _, located, _⟩ := bind_ok_iff.mp isThere
  exact fits_of_locate located

theorem directory_node_of_metadata (isThere : metadata path tree = .ok directory tree)
    (isDirectory : directory.isDirectory = true) :
    directoryNode path tree =
      if directory.allows .read then .ok directory tree
      else .error (.fault .permissionDenied) tree := by
  have opened : directoryNode path tree =
      (do demand directory .read; return directory : Disk Node) tree := by
    unfold directoryNode
    rw [bind_of_ok isThere, if_pos isDirectory]
  rw [opened]
  unfold demand
  split <;> rfl

end Disk

namespace DiskResources

/-- A table of what is in reach below a directory, each under the path of its names behind
those of a folder. -/
structure ShowsBelow (folder : List String) (directory : Node) (recursive : Bool)
    (found : Table ObjectProperties) : Prop where
  complete : ∀ deeper node, InReach recursive deeper → directory.at? deeper = some node →
    found.get? (render (folder ++ deeper)) = some (nodeProperties node) ∧
      ((nodeProperties node).kind = .folder ↔ node.isDirectory = true)
  once : ∀ key ∈ found.keys, ∃! deeper, InReach recursive deeper ∧
    (directory.at? deeper).isSome = true ∧ key = render (folder ++ deeper)

/-- How a listing of the directory at a path ends: with all that is in reach below it, if
nothing hinders the reading of a directory there, and else at such an obstacle. -/
structure Lists (storage : Storage) (base : String) (directory : Node) (recursive : Bool)
    (folder : List String)
    (result : EStateM.Result BackendError Storage (Table ObjectProperties)) : Prop where
  unobstructed :
    (∀ further, Folder.Reaches recursive ⟨base, "", directory⟩ further →
      further.obstacle? = none) →
    ∃ found, result = .ok found storage ∧ ShowsBelow folder directory recursive found
  obstructed :
    (∃ further, Folder.Reaches recursive ⟨base, "", directory⟩ further ∧
      further.obstacle? ≠ none) →
    ∃ further place cause, Folder.Reaches recursive ⟨base, "", directory⟩ further ∧
      further.obstacle? = some (place, cause) ∧
        result = .error (.io place (.fault cause)) storage

section Outcomes

variable {storage after : Storage} {base : String} {directory : Node} {recursive : Bool}
  {folder : List String} {found : Table ObjectProperties}
  {result : EStateM.Result BackendError Storage (Table ObjectProperties)}

theorem Lists.free_of_ok (lists : Lists storage base directory recursive folder result)
    (ran : result = .ok found after) (further : Folder)
    (reached : Folder.Reaches recursive ⟨base, "", directory⟩ further) :
    further.obstacle? = none := by
  by_contra met
  obtain ⟨_, _, _, _, _, failed⟩ := lists.obstructed ⟨further, reached, met⟩
  cases failed.symm.trans ran

theorem Lists.of_ok (lists : Lists storage base directory recursive folder result)
    (ran : result = .ok found after) :
    after = storage ∧ ShowsBelow folder directory recursive found := by
  obtain ⟨shown, same, below⟩ := lists.unobstructed (lists.free_of_ok ran)
  cases same.symm.trans ran
  exact ⟨rfl, below⟩

end Outcomes

section Scans

variable {directory : Node} {recursive : Bool} {path : String} {storage : Storage}

theorem kind_of_node (node : Node) :
    (nodeProperties node).kind = .folder ↔ node.isDirectory = true := by
  unfold nodeProperties
  cases node.isDirectory <;> simp

theorem shows_below {folder : List String} {found : Table ObjectProperties}
    (proper : AreNames folder) (named : directory.WellNamed)
    (isFound : ∀ key properties, found.get? key = some properties ↔
      ∃ deeper node, InReach recursive deeper ∧ directory.at? deeper = some node ∧
        key = render (folder ++ deeper) ∧ properties = nodeProperties node) :
    ShowsBelow folder directory recursive found := by
  refine ⟨?_, ?_⟩
  · intro deeper node reach stands
    exact ⟨(isFound _ _).mpr ⟨deeper, node, reach, stands, rfl, rfl⟩, kind_of_node node⟩
  · intro key member
    obtain ⟨properties, isSome⟩ :=
      Option.isSome_iff_exists.mp ((found.mem_keys_iff key).mp member)
    obtain ⟨deeper, node, reach, stands, rfl, _⟩ := (isFound _ _).mp isSome
    have properOne : ∀ {names child}, directory.at? names = some child →
        AreNames (folder ++ names) := fun stands =>
      are_names_append.mpr ⟨proper, (Node.well_named_at named stands).1⟩
    refine ⟨deeper, ⟨reach, by rw [stands]; rfl, rfl⟩, ?_⟩
    rintro other ⟨_, otherStands, same⟩
    obtain ⟨child, isChild⟩ := Option.isSome_iff_exists.mp otherStands
    exact (List.append_cancel_left
      (render_injective (properOne stands) (properOne isChild) same)).symm

/-- A scan of a path at which a directory stands is a visit that starts there. -/
theorem scan_of_directory
    (isThere : Disk.metadata path storage.disk = .ok directory storage.disk)
    (isDirectory : directory.isDirectory = true) (recursive : Bool) :
    scan path recursive storage =
      match Folder.visit recursive [⟨path, "", directory⟩] with
      | .error (place, cause) => .error (.io place (.fault cause)) storage
      | .ok visited => .ok (Table.ofList (visited.flatMap listed)) storage := by
  have present : Access.atPath path (Disk.isPresent path) storage = .ok true storage := by
    unfold Access.atPath Access.onDisk
    rw [Disk.is_present_of_metadata isThere]
  have opened := Disk.directory_node_of_metadata isThere isDirectory
  unfold scan
  rw [bind_of_ok present, if_pos rfl]
  by_cases readable : directory.allows .read = true
  · rw [if_pos readable] at opened
    have entered :
        Access.atPath path (Disk.directoryNode path) storage = .ok directory storage := by
      unfold Access.atPath Access.onDisk
      rw [opened]
    rw [bind_of_ok entered]
    rcases Folder.visit recursive [⟨path, "", directory⟩] with
      ⟨place, cause⟩ | visited <;> rfl
  · rw [if_neg readable] at opened
    have refused : Access.atPath path (Disk.directoryNode path) storage =
        .error (.io path (.fault .permissionDenied)) storage := by
      unfold Access.atPath Access.onDisk
      rw [opened]
    have blocked : Folder.obstacle? ⟨path, "", directory⟩ = some (path, .permissionDenied) := by
      have fits : ¬ FileTree.longestPath < path.utf8ByteSize :=
        Nat.not_lt.mpr (Disk.fits_of_metadata isThere).2.2
      unfold Folder.obstacle?
      rw [if_neg fits, if_pos (by simpa using readable)]
    rw [bind_of_error refused, Folder.visit, blocked]

theorem lists_of_visit (isDirectory : directory.isDirectory = true) (named : directory.WellNamed)
    {folder : List String} (shown : List Folder → Table ObjectProperties)
    (isShown : ∀ visited, (∀ further,
        further ∈ visited ↔ Folder.Reaches recursive ⟨path, "", directory⟩ further) →
      ShowsBelow folder directory recursive (shown visited))
    {result : EStateM.Result BackendError Storage (Table ObjectProperties)}
    (ran : result = match Folder.visit recursive [⟨path, "", directory⟩] with
      | .error (place, cause) => .error (.io place (.fault cause)) storage
      | .ok visited => .ok (shown visited) storage) :
    Lists storage path directory recursive folder result := by
  rcases visit_of_directory isDirectory named path recursive with
    ⟨visited, visits, isVisited⟩ | ⟨⟨place, cause⟩, stopped, further, reached, blocked⟩
  · rw [visits] at ran
    refine ⟨fun _ => ⟨_, ran, isShown visited fun further => (isVisited further).1⟩, ?_⟩
    rintro ⟨further, reached, blocked⟩
    obtain ⟨isMember, free⟩ := isVisited further
    exact absurd (free (isMember.mpr reached)) blocked
  · rw [stopped] at ran
    refine ⟨fun free => ?_, fun _ => ⟨further, place, cause, reached, blocked, ran⟩⟩
    rw [free further reached] at blocked
    cases blocked

theorem scan_lists (isThere : Disk.metadata path storage.disk = .ok directory storage.disk)
    (isDirectory : directory.isDirectory = true) (named : directory.WellNamed)
    (recursive : Bool) :
    Lists storage path directory recursive [] (scan path recursive storage) := by
  refine lists_of_visit isDirectory named _ (fun visited isVisited => ?_)
    (scan_of_directory isThere isDirectory recursive)
  exact shows_below are_names_nil named (visited_get?_iff named isVisited)

theorem directory_of_list {left : Nat} {base : List String} {found : Table ObjectProperties}
    {after : Storage} (grounds : FileTree.Grounds (steps path) left base storage.disk directory)
    (nonempty : path ≠ "") (ran : listObjects path "" recursive storage = .ok found after) :
    Disk.metadata (DiskPath.join path (clean "")) storage.disk = .ok directory storage.disk := by
  have into : GoesInto (steps path) [] (DiskPath.join path (clean "")) :=
    goes_into_join path are_names_nil
  obtain ⟨_, _, scanned, _⟩ := bind_ok_iff.mp ran
  obtain ⟨present, _, asked, _⟩ := bind_ok_iff.mp scanned
  obtain ⟨disk, isPresent, _⟩ := at_path_ok asked
  have there := Disk.is_present_inside grounds into (join_ne_empty nonempty _) isPresent
  rw [Node.at?_nil] at there
  subst there
  rcases Disk.is_present_ok isPresent with ⟨node, read, _⟩ | ⟨_, impossible⟩
  · have stands := Disk.metadata_inside grounds into read
    cases stands
    cases (Disk.metadata_looks _).of_ok read
    exact read
  · cases impossible

theorem list_lists {container within : String}
    (isThere : Disk.metadata (DiskPath.join container (clean within)) storage.disk =
      .ok directory storage.disk)
    (isDirectory : directory.isDirectory = true) (named : directory.WellNamed)
    (recursive : Bool) :
    Lists storage (DiskPath.join container (clean within)) directory recursive
      (ObjectPath.names within) (listObjects container within recursive storage) := by
  have proper := names_are_names within
  let renamed := fun found : Table ObjectProperties => Table.ofList (found.entries.map fun entry =>
    (ObjectPath.join (clean within) entry.1, entry.2))
  refine lists_of_visit isDirectory named
    (fun visited => renamed (Table.ofList (visited.flatMap listed))) ?shown ?ran
  case shown =>
    intro visited isVisited
    refine shows_below proper named ?_
    simp only [renamed, clean_eq_render]
    exact renamed_get?_iff directory.at? proper
      (fun stands => (Node.well_named_at named stands).1) (visited_get?_iff named isVisited)
  case ran =>
    have scanned := scan_of_directory isThere isDirectory recursive
    have whole : listObjects container within recursive =
        (do return renamed (← scan (DiskPath.join container (clean within)) recursive)) := rfl
    rw [whole]
    revert scanned
    rcases Folder.visit recursive [⟨DiskPath.join container (clean within), "", directory⟩] with
      ⟨place, cause⟩ | visited
    · exact bind_of_error
    · exact bind_of_ok

end Scans

/-- Listings of a directory of proper names are complete. A scan of a path that leads to it
yields each node in reach below it once, under its path from there, or fails at a directory
that cannot be read, and so does a listing of a container, under paths from the container. -/
theorem directory_listings (storage : Storage) (directory : Node) (recursive : Bool)
    (isDirectory : directory.isDirectory = true) (named : directory.WellNamed) :
    (∀ base, Disk.metadata base storage.disk = .ok directory storage.disk →
      Lists storage base directory recursive [] (scan base recursive storage)) ∧
    ∀ root name within,
      let container : ContainerHandle := ⟨.disk root, name⟩
      let base := DiskPath.join container.uri (clean within)
      Disk.metadata base storage.disk = .ok directory storage.disk →
      Lists storage base directory recursive (ObjectPath.names within)
        (container.list within recursive storage) :=
  ⟨fun _ isThere => scan_lists isThere isDirectory named recursive,
    fun _ _ _ isThere => list_lists isThere isDirectory named recursive⟩

/-- A link is listed but not entered, and its name can be the beginning of another. -/
theorem directory_listings_with_link :
    let inner : Node := .directory 0o755 ⟨0⟩
      [("x", .file 0o644 ⟨0⟩ [1]), ("b", .directory 0o755 ⟨0⟩ [])]
    let directory : Node := .directory 0o755 ⟨0⟩
      [("l", .link ⟨0⟩ "a"), ("a", inner), ("l.x", .file 0o600 ⟨0⟩ [])]
    let storage := Storage.fresh
      ⟨.directory 0o755 ⟨0⟩ [("r", .directory 0o755 ⟨0⟩ [("c", directory)])], ⟨0⟩⟩
    let container : ContainerHandle := ⟨.disk "/r", "c"⟩
    ∃ found shown, scan "/r/c" true storage = .ok found storage ∧
      ShowsBelow [] directory true found ∧ found.keys = ["a", "a/b", "a/x", "l", "l.x"] ∧
      container.list "a/" true storage = .ok shown storage ∧
      ShowsBelow ["a"] inner true shown ∧ shown.keys = ["a/b", "a/x"] := by
  intro inner directory storage container
  have innerNamed : inner.WellNamed :=
    .directory (by decide) (by decide) (by simp [Node.WellNamed.file, Node.WellNamed.directory])
  have named : directory.WellNamed :=
    .directory (by decide) (by decide)
      (by simp [Node.WellNamed.file, Node.WellNamed.link, innerNamed])
  have isThere : Disk.metadata "/r/c" storage.disk = .ok directory storage.disk := by
    have barred : storage.disk.root.Passable ["r", "c"] :=
      Node.passable_cons rfl (by decide) (by decide) fun _ => ⟨_, rfl,
        Node.passable_cons rfl (by decide) (by decide) fun more => absurd rfl more⟩
    exact Disk.metadata_of_names (by decide) (by decide +kernel)
      (Node.unbarred_of_passable barred) rfl rfl
  have isInside : Disk.metadata (DiskPath.join container.uri (clean "a/")) storage.disk =
      .ok inner storage.disk := by
    have barred : storage.disk.root.Passable ["r", "c", "a"] :=
      Node.passable_cons rfl (by decide) (by decide) fun _ => ⟨_, rfl,
        Node.passable_cons rfl (by decide) (by decide) fun _ => ⟨_, rfl,
          Node.passable_cons rfl (by decide) (by decide) fun more => absurd rfl more⟩⟩
    exact Disk.metadata_of_names (by decide +kernel) (by decide +kernel)
      (Node.unbarred_of_passable barred) rfl rfl
  have isScanned : ((scan "/r/c" true).run' storage).map (·.keys) =
      some ["a", "a/b", "a/x", "l", "l.x"] := by
    decide +kernel
  have isListed : ((container.list "a/" true).run' storage).map (·.keys) =
      some ["a/b", "a/x"] := by
    decide +kernel
  obtain ⟨found, isSome, foundKeys⟩ := Option.map_eq_some_iff.mp isScanned
  obtain ⟨shown, isShown, shownKeys⟩ := Option.map_eq_some_iff.mp isListed
  obtain ⟨_, scans⟩ := ok_of_run' isSome
  obtain ⟨_, lists⟩ := ok_of_run' isShown
  have whole := (directory_listings storage directory true rfl named).1 "/r/c" isThere
  have part := (directory_listings storage inner true rfl innerNamed).2 "/r" "c" "a/" isInside
  obtain ⟨rfl, below⟩ := whole.of_ok scans
  obtain ⟨rfl, belowInner⟩ := part.of_ok lists
  exact ⟨found, shown, scans, below, foundKeys, lists, belowInner, shownKeys⟩

end DiskResources

end StorageScenario
