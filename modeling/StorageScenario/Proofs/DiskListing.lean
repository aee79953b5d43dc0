import Mathlib.Data.List.Induction
import StorageScenario.Proofs.DirectoryCalls
import StorageScenario.Proofs.DirectoryVisit
import StorageScenario.Storage.ResourceCalls

/-!
Listings of a directory of proper names. A visit reads each directory in reach once, under the
path of its names, so the table that is made of what they list is a look-up of names in the
directory.
-/

namespace StorageScenario

open DiskPath ObjectPath Work

def Table.kinds (listed : Table ObjectProperties) : Table EntityKind := listed.map (·.kind)

theorem Table.kinds_get?_iff (listed : Table ObjectProperties) (key : String)
    (kind : EntityKind) :
    listed.kinds.get? key = some kind ↔
      ∃ properties, listed.get? key = some properties ∧ properties.kind = kind := by
  rw [get?_eq_some_iff]
  simp only [get?_eq_some_iff, kinds, map, List.mem_map, Prod.mk.injEq]
  constructor
  · rintro ⟨⟨_, properties⟩, member, rfl, same⟩
    exact ⟨properties, member, same⟩
  · rintro ⟨properties, member, same⟩
    exact ⟨(key, properties), member, rfl, same⟩

namespace DiskResources

theorem join_name {folder : List String} (proper : AreNames folder) {name : String}
    (isName : IsName name) :
    ObjectPath.join (render folder) name = render (folder ++ [name]) := by
  have joined := join_render (render folder) (are_names_single.mpr isName)
  rwa [render_single, names_render proper] at joined

theorem join_names {folder names : List String} (proper : AreNames (folder ++ names)) :
    names.foldl ObjectPath.join (render folder) = render (folder ++ names) := by
  induction names generalizing folder with
  | nil => rw [List.foldl_nil, List.append_nil]
  | cons name rest ih =>
      have whole : folder ++ name :: rest = folder ++ [name] ++ rest := by simp
      rw [whole] at proper ⊢
      obtain ⟨properFront, isName⟩ := are_names_append.mp (are_names_append.mp proper).1
      rw [List.foldl_cons, join_name properFront (isName name List.mem_cons_self), ih proper]

theorem join_last {front : List String} {name : String} (proper : AreNames (front ++ [name])) :
    ObjectPath.join (front.foldl ObjectPath.join "") name = render (front ++ [name]) := by
  obtain ⟨properFront, isName⟩ := are_names_append.mp proper
  have atTop : AreNames ([] ++ front) := properFront
  have inFront : front.foldl ObjectPath.join "" = render front := join_names atTop
  rw [inFront, join_name properFront (isName name List.mem_cons_self)]

section Visits

variable {directory : Node} {recursive : Bool} {path : String} {visited : List Folder}

theorem mem_listed_iff {folder : Folder} (named : folder.node.WellNamed)
    (pair : String × ObjectProperties) :
    pair ∈ listed folder ↔ ∃ name child, folder.node.entries.lookup name = some child ∧
      pair = (ObjectPath.join folder.relative name, nodeProperties child) := by
  have distinct := (Node.well_named_entries named).1
  unfold listed
  rw [List.mem_map]
  constructor
  · rintro ⟨⟨name, child⟩, member, rfl⟩
    exact ⟨name, child, (Table.lookup_distinct_iff distinct _ _).mpr member, rfl⟩
  · rintro ⟨name, child, entry, rfl⟩
    exact ⟨(name, child), Table.mem_of_lookup entry, rfl⟩

theorem visit_of_directory (isDirectory : directory.isDirectory = true)
    (named : directory.WellNamed) (path : String) (recursive : Bool) :
    (∃ visited, Folder.visit recursive [⟨path, "", directory⟩] = .ok visited ∧ ∀ further,
      (further ∈ visited ↔ Folder.Reaches recursive ⟨path, "", directory⟩ further) ∧
        (further ∈ visited → further.obstacle? = none)) ∨
    ∃ obstacle, Folder.visit recursive [⟨path, "", directory⟩] = .error obstacle ∧
      ∃ further, Folder.Reaches recursive ⟨path, "", directory⟩ further ∧
        further.obstacle? = some obstacle := by
  have ready : ∀ folder ∈ [(⟨path, "", directory⟩ : Folder)], folder.Ready := by
    intro folder member
    cases List.mem_singleton.mp member
    exact ⟨isDirectory, named⟩
  simpa using Folder.visit_cases recursive _ ready

/-- What all directories in reach list is what stands below the first, under its names. -/
theorem mem_visited_iff (named : directory.WellNamed)
    (isVisited : ∀ further,
      further ∈ visited ↔ Folder.Reaches recursive ⟨path, "", directory⟩ further)
    (pair : String × ObjectProperties) :
    pair ∈ visited.flatMap listed ↔
      ∃ deeper node, InReach recursive deeper ∧ directory.at? deeper = some node ∧
        pair = (render deeper, nodeProperties node) := by
  rw [List.mem_flatMap]
  constructor
  · rintro ⟨folder, member, inside⟩
    obtain ⟨front, reach, stands, _, _, isRelative⟩ := (isVisited folder).mp member
    have namedFolder := (Node.well_named_at named stands).2
    obtain ⟨name, child, entry, rfl⟩ := (mem_listed_iff namedFolder pair).mp inside
    have found : directory.at? (front ++ [name]) = some child :=
      (Node.at?_snoc stands name).trans entry
    have proper := (Node.well_named_at named found).1
    refine ⟨front ++ [name], child, ⟨by simp, ?_⟩, found, ?_⟩
    · rcases reach with rfl | descends
      · exact Or.inr rfl
      · exact Or.inl descends
    · rw [isRelative, join_last proper]
  · rintro ⟨deeper, node, ⟨nonempty, reach⟩, stands, rfl⟩
    obtain ⟨front, name, rfl⟩ := List.eq_nil_or_concat' deeper |>.resolve_left nonempty
    rw [Node.at?_append] at stands
    obtain ⟨parent, inFront, last⟩ := Option.bind_eq_some_iff.mp stands
    obtain ⟨child, entry, isNode⟩ := Option.bind_eq_some_iff.mp last
    cases isNode
    have proper := (Node.well_named_at named ((Node.at?_snoc inFront name).trans entry)).1
    have reached : Folder.Reaches recursive ⟨path, "", directory⟩
        ⟨front.foldl DiskPath.join path, front.foldl ObjectPath.join "", parent⟩ := by
      refine ⟨front, ?_, inFront, Node.directory_of_entry entry, rfl, rfl⟩
      rcases reach with descends | single
      · exact Or.inr descends
      · exact Or.inl (by simpa using single)
    refine ⟨_, (isVisited _).mpr reached, ?_⟩
    refine (mem_listed_iff (Node.well_named_at named inFront).2 _).mpr ⟨name, node, entry, ?_⟩
    rw [join_last proper]

theorem visited_get?_iff (named : directory.WellNamed)
    (isVisited : ∀ further,
      further ∈ visited ↔ Folder.Reaches recursive ⟨path, "", directory⟩ further)
    (key : String) (properties : ObjectProperties) :
    (Table.ofList (visited.flatMap listed)).get? key = some properties ↔
      ∃ deeper node, InReach recursive deeper ∧ directory.at? deeper = some node ∧
        key = render deeper ∧ properties = nodeProperties node := by
  have isMember := mem_visited_iff named isVisited
  rw [Table.get?_of_list_iff, isMember]
  · simp only [Prod.mk.injEq]
  · intro key first second inFirst inSecond
    obtain ⟨deeper, node, _, stands, isFirst⟩ := (isMember _).mp inFirst
    obtain ⟨others, other, _, otherStands, isSecond⟩ := (isMember _).mp inSecond
    obtain ⟨sameKey, rfl⟩ := Prod.mk.inj isFirst
    obtain ⟨otherKey, rfl⟩ := Prod.mk.inj isSecond
    cases render_injective (Node.well_named_at named stands).1
      (Node.well_named_at named otherStands).1 (sameKey.symm.trans otherKey)
    cases stands.symm.trans otherStands
    rfl

theorem renamed_get?_iff (stands : List String → Option Node) {found : Table ObjectProperties}
    {folder : List String} (proper : AreNames folder)
    (properOnes : ∀ {deeper node}, stands deeper = some node → AreNames deeper)
    (isFound : ∀ key properties, found.get? key = some properties ↔
      ∃ deeper node, InReach recursive deeper ∧ stands deeper = some node ∧
        key = render deeper ∧ properties = nodeProperties node)
    (key : String) (properties : ObjectProperties) :
    (Table.ofList (found.entries.map fun entry =>
      (ObjectPath.join (render folder) entry.1, entry.2))).get? key = some properties ↔
      ∃ deeper node, InReach recursive deeper ∧ stands deeper = some node ∧
        key = render (folder ++ deeper) ∧ properties = nodeProperties node := by
  have isClean : ∀ key ∈ found.keys, clean key = key := by
    intro key member
    obtain ⟨_, isSome⟩ := Option.isSome_iff_exists.mp ((found.mem_keys_iff key).mp member)
    obtain ⟨deeper, node, _, shown, rfl, _⟩ := (isFound _ _).mp isSome
    exact clean_render (properOnes shown)
  have distinct : ∀ first ∈ found.keys, ∀ second ∈ found.keys,
      ObjectPath.join (render folder) first = ObjectPath.join (render folder) second →
        first = second :=
    fun first isFirst second isSecond =>
      join_injective _ (isClean first isFirst) (isClean second isSecond)
  have renamed : ∀ {deeper}, AreNames deeper →
      ObjectPath.join (render folder) (render deeper) = render (folder ++ deeper) := by
    intro deeper below
    rw [join_render _ below, names_render proper]
  refine (found.get?_renamed_iff _ distinct key properties).trans ?_
  constructor
  · intro ⟨_, isSome, isKey⟩
    obtain ⟨deeper, node, reach, shown, rfl, same⟩ := (isFound _ _).mp isSome
    exact ⟨deeper, node, reach, shown, isKey.trans (renamed (properOnes shown)), same⟩
  · rintro ⟨deeper, node, reach, shown, rfl, same⟩
    exact ⟨_, (isFound _ _).mpr ⟨deeper, node, reach, shown, rfl, same⟩,
      (renamed (properOnes shown)).symm⟩

end Visits

section Scans

variable {ground : Node} {recursive : Bool}

theorem at_path_ok {α : Type} {path : String} {calls : Disk α} {storage after : Storage}
    {value : α} (ran : Access.atPath path calls storage = .ok value after) :
    ∃ disk, calls storage.disk = .ok value disk ∧ after = { storage with disk := disk } := by
  unfold Access.atPath Access.onDisk at ran
  cases called : calls storage.disk with
  | ok found disk =>
      rw [called] at ran
      cases ran
      exact ⟨disk, rfl, rfl⟩
  | error cause disk =>
      rw [called] at ran
      cases ran

theorem scan_inside {way : List DiskPath.Step} {left : Nat} {base names : List String}
    {path : String} {storage after : Storage} {listed : Table ObjectProperties}
    (grounds : FileTree.Grounds way left base storage.disk ground)
    (into : GoesInto way names path) (nonempty : path ≠ "")
    (ran : scan path recursive storage = .ok listed after) (key : String)
    (properties : ObjectProperties) :
    listed.get? key = some properties ↔
      ∃ deeper node, InReach recursive deeper ∧ ground.at? (names ++ deeper) = some node ∧
        key = render deeper ∧ properties = nodeProperties node := by
  obtain ⟨present, between, asked, scanned⟩ := bind_ok_iff.mp ran
  obtain ⟨disk, isPresent, rfl⟩ := at_path_ok asked
  have same := (Disk.is_present_looks path).of_ok isPresent
  subst same
  have shown := Disk.is_present_inside grounds into nonempty isPresent
  cases there : ground.at? names with
  | none =>
      rw [there] at shown
      subst shown
      cases scanned
      simp [Node.at?_append, there]
  | some held =>
      rw [there] at shown
      subst shown
      obtain ⟨directory, _, opened, surveyed⟩ := bind_ok_iff.mp scanned
      obtain ⟨_, isDirectory, rfl⟩ := at_path_ok opened
      obtain ⟨stands, isDirectory⟩ := Disk.directory_node_inside grounds into isDirectory
      have named := Node.well_named_of_tidy (Node.tidy_at grounds.tidy stands).2
      rcases visit_of_directory isDirectory named path recursive with
        ⟨visited, visits, isVisited⟩ | ⟨⟨place, cause⟩, stopped, _⟩
      · rw [visits] at surveyed
        cases surveyed
        rw [visited_get?_iff named fun further => (isVisited further).1]
        simp only [Node.at?_append, stands, Option.bind_some]
      · rw [stopped] at surveyed
        cases surveyed

theorem list_objects_inside {way : List DiskPath.Step} {left : Nat} {base : List String}
    {path within : String} {storage after : Storage} {listed : Table ObjectProperties}
    (grounds : FileTree.Grounds way left base storage.disk ground) (isWay : steps path = way)
    (nonempty : path ≠ "") (ran : listObjects path within recursive storage = .ok listed after)
    (key : String) (properties : ObjectProperties) :
    listed.get? key = some properties ↔
      ∃ deeper node, InReach recursive deeper ∧
        ground.at? (ObjectPath.names within ++ deeper) = some node ∧
        key = render (ObjectPath.names within ++ deeper) ∧ properties = nodeProperties node := by
  have proper := names_are_names within
  obtain ⟨found, between, scanned, returned⟩ := bind_ok_iff.mp ran
  cases returned
  rw [clean_eq_render] at scanned ⊢
  have into : GoesInto way (ObjectPath.names within)
      (DiskPath.join path (render (ObjectPath.names within))) :=
    isWay ▸ goes_into_join path proper
  have shown := scan_inside grounds into (join_ne_empty nonempty _) scanned
  have deeperNames : ∀ {deeper node},
      ground.at? (ObjectPath.names within ++ deeper) = some node → AreNames deeper :=
    fun stands => (are_names_append.mp (Node.tidy_at grounds.tidy stands).1).2
  exact renamed_get?_iff (fun deeper => ground.at? (ObjectPath.names within ++ deeper)) proper
    deeperNames shown key properties

end Scans

end DiskResources

end StorageScenario
