import StorageScenario.Proofs.CreatedTrees
import StorageScenario.Proofs.DirectoryScan
import StorageScenario.Proofs.DiskHistory

/-!
What a cleanup leaves on disk of what was created in a container that was there before. The
objects are tracked and go away with all that is below them, and nothing that was there before is
altered. The folders that were made above the objects are not tracked, so those that were
missing before are there afterwards.
-/

namespace StorageScenario

open DiskPath ObjectPath FileTree Work

section Listings

variable {root name : String} {left : Nat} {base : List String} {before after : Storage}
  {origin now : Node} {made : List (List String)} {listed : Table ObjectProperties}

/-- Nothing hinders the reading of a directory that could be read at first. What is new in it
belongs to the caller, and its path is part of one that could be used. -/
theorem unobstructed_later {path : String} (nonempty : path ≠ "")
    (grown : Node.Grown origin now made)
    (fits : ∀ names ∈ made, AreNames names ∧
      Disk.PathFits (DiskPath.join path (render names)))
    (free : ∀ further,
      Folder.Reaches true ⟨DiskPath.join path (clean ""), "", origin⟩ further →
      further.obstacle? = none) (further : Folder)
    (reached : Folder.Reaches true ⟨DiskPath.join path (clean ""), "", now⟩ further) :
    further.obstacle? = none := by
  obtain ⟨deeper, reach, stands, isDirectory, isPath, isRelative⟩ := reached
  rw [Folder.obstacle?_eq_none_iff]
  cases before : origin.at? deeper with
  | some held =>
      obtain ⟨_, found, unaltered⟩ := grown.kept deeper held before
      cases found.symm.trans stands
      obtain ⟨short, readable, searchable⟩ := Folder.obstacle?_eq_none_iff.mp
        (free ⟨further.path, further.relative, held⟩ ⟨deeper, reach, before,
          unaltered.isDirectory.symm.trans isDirectory, isPath, isRelative⟩)
      refine ⟨short, (unaltered.allows _).trans readable, ?_⟩
      intro holds
      obtain ⟨⟨name, child⟩, rest, isFirst⟩ := List.exists_cons_of_ne_nil holds
      have entry : now.at? (deeper ++ [name]) = some child := by
        rw [Node.at?_snoc stands, isFirst, List.lookup_cons_self]
      cases earlier : origin.at? (deeper ++ [name]) with
      | some old =>
          rw [Node.at?_snoc before] at earlier
          rw [unaltered.allows]
          refine searchable ?_
          rintro nothing
          change held.entries = [] at nothing
          rw [nothing] at earlier
          cases earlier
      | none =>
          obtain ⟨directory, inFront, changeable⟩ := grown.opened earlier entry
          cases inFront.symm.trans stands
          exact changeable.2.2
  | none =>
      have owned := grown.owned before stands isDirectory
      refine ⟨?_, owned .read, fun _ => owned .search⟩
      obtain ⟨_, member, rest, rfl⟩ := grown.isMade before stands
      obtain ⟨proper, _, _, short⟩ := fits _ member
      obtain ⟨slashed, slash, joined⟩ := join_relative nonempty
      have atTop : DiskPath.join path (clean "") = slashed := by
        rw [joined (clean "") (by decide)]
        exact String.append_empty
      rw [joined _ (render_is_relative proper)] at short
      rw [isPath]
      change (deeper.foldl DiskPath.join (DiskPath.join path (clean ""))).utf8ByteSize ≤ _
      rw [atTop]
      exact (join_each_size slash proper).trans short

theorem found_of_shown {found : Table ObjectProperties}
    (below : DiskResources.ShowsBelow [] now true found) (named : now.WellNamed) {key : String}
    {properties : ObjectProperties} (isFound : found.get? key = some properties) :
    ∃ names node, InReach true names ∧ AreNames names ∧ now.at? names = some node ∧
      key = render names ∧ properties = DiskResources.nodeProperties node := by
  have member : key ∈ found.keys := by
    rw [Table.mem_keys_iff, isFound]
    rfl
  obtain ⟨names, ⟨reach, isThere, rfl⟩, _⟩ := below.once key member
  obtain ⟨node, stands⟩ := Option.isSome_iff_exists.mp isThere
  rw [(below.complete names node reach stands).1] at isFound
  cases isFound
  exact ⟨names, node, reach, (Node.well_named_at named stands).1, stands, rfl, rfl⟩

theorem shown_kind {found : Table ObjectProperties}
    (below : DiskResources.ShowsBelow [] now true found) (named : now.WellNamed)
    {names : List String} (proper : AreNames names) (nonempty : names ≠ []) :
    found.kinds.get? (render names) = now.kindAt? names := by
  unfold Table.kinds
  rw [Table.get?_map]
  cases stands : now.at? names with
  | some node =>
      have shown := (below.complete names node ⟨nonempty, Or.inl rfl⟩ stands).1
      rw [List.nil_append] at shown
      rw [shown, Node.kind_at?_of_found stands]
      rfl
  | none =>
      rw [Node.kind_at?_eq_none_iff.mpr stands, Option.map_eq_none_iff]
      apply Option.eq_none_iff_forall_ne_some.mpr
      intro properties isFound
      obtain ⟨deeper, node, _, properOne, isHeld, same, _⟩ := found_of_shown below named isFound
      cases render_injective proper properOne same
      cases stands.symm.trans isHeld

theorem same_kinds_iff {first second : Table ObjectProperties}
    (isFirst : DiskResources.ShowsBelow [] now true first) (named : now.WellNamed)
    (isSecond : DiskResources.ShowsBelow [] origin true second) (namedOrigin : origin.WellNamed) :
    first.kinds = second.kinds ↔
      ∀ names, AreNames names → names ≠ [] → now.kindAt? names = origin.kindAt? names := by
  constructor
  · intro same names proper nonempty
    rw [← shown_kind isFirst named proper nonempty, same,
      shown_kind isSecond namedOrigin proper nonempty]
  · intro same
    have agree : ∀ names, AreNames names → names ≠ [] →
        first.kinds.get? (render names) = second.kinds.get? (render names) := by
      intro names proper nonempty
      rw [shown_kind isFirst named proper nonempty, same names proper nonempty,
        shown_kind isSecond namedOrigin proper nonempty]
    apply Table.eq_of_get?
    intro key
    apply Option.ext
    intro kind
    constructor
    · intro shown
      obtain ⟨properties, isFound, _⟩ := (Table.kinds_get?_iff _ _ _).mp shown
      obtain ⟨names, _, reach, proper, _, rfl, _⟩ := found_of_shown isFirst named isFound
      rw [← agree names proper reach.1]
      exact shown
    · intro shown
      obtain ⟨properties, isFound, _⟩ := (Table.kinds_get?_iff _ _ _).mp shown
      obtain ⟨names, _, reach, proper, _, rfl, _⟩ := found_of_shown isSecond namedOrigin isFound
      rw [agree names proper reach.1]
      exact shown

end Listings

section Runs

variable {root name : String} {left : Nat} {base : List String} {storage after : Storage}
  {origin : Node}

open Creation Node

theorem make_plan_inside {wanted : ContainerDefinition} {tracked : List Resource}
    (grounds : Grounds (steps (DiskPath.join root name)) left base storage.disk origin)
    (nonempty : DiskPath.join root name ≠ "")
    (ran : makeAll (containerPlan ⟨.disk root, name⟩ wanted) storage = .ok tracked after) :
    makeAll ((wantedObjects wanted).map (objectCall ⟨.disk root, name⟩)) storage =
      .ok tracked after := by
  cases isWanted : wanted.isWanted with
  | false =>
      unfold containerPlan at ran
      unfold wantedObjects
      rw [isWanted] at ran ⊢
      exact ran
  | true =>
      rw [container_plan_eq isWanted] at ran
      obtain ⟨isNew, between, opened, ranRest⟩ := bind_ok_iff.mp ran
      obtain ⟨rfl, rfl⟩ := open_container_inside grounds nonempty opened
      obtain ⟨others, _, ranOthers, returned⟩ := bind_ok_iff.mp ranRest
      cases returned
      exact ranOthers

theorem cleanup_inside {definition : Definition} {wanted : ContainerDefinition}
    {session made : Session} {target : Resource}
    (isWrapper : definition.inContainer? session.context.names = some wanted)
    (untracked : session.context.created = [])
    (start : Grounds (steps (DiskPath.join root name)) left base session.storage.disk origin)
    (nonempty : DiskPath.join root name ≠ "")
    (free : ∀ entry ∈ wantedObjects wanted, origin.at? (ObjectPath.names entry.1) = none)
    (granted : ∀ entry ∈ wantedObjects wanted, entry.2.properties.kind = .folder →
      ∀ mode, entry.2.properties.nfs.fileMode = some mode → GrantsAll mode)
    (ran : create (.container ⟨.disk root, name⟩) definition session = .ok target made) :
    ∃ after full later, cleanup made = .ok () after ∧ after.context.created = [] ∧
      Grows (steps (DiskPath.join root name)) left base session.storage.disk after.storage.disk
        later ∧
      Grown origin later ((wantedObjects wanted).map fun entry => ObjectPath.names entry.1) ∧
      Cleared ((wantedObjects wanted).map fun entry => ObjectPath.names entry.1) full later ∧
      (∀ path ∈ (wantedObjects wanted).map fun entry => ObjectPath.names entry.1,
        full.Passable path) ∧
      ∀ path ∈ (wantedObjects wanted).map fun entry => ObjectPath.names entry.1,
        Disk.PathFits (DiskPath.join (DiskPath.join root name) (render path)) := by
  obtain ⟨shallow, names, aim, bound, ⟨log, ranLift⟩, lowered⟩ :=
    Definition.lift_into_container isWrapper ⟨.disk root, name⟩
  have notDeeper : (Resource.container ⟨.disk root, name⟩).level ≤ definition.level := shallow
  have performed := create_performs notDeeper ranLift rfl lowered
  rw [ran] at performed
  cases performed with
  | all tracked _ makes isContext =>
      obtain ⟨isTracked, fits, full, grows, grown, passable⟩ :=
        make_objects_inside (wantedObjects wanted) free granted start.grow_nothing
          (grown_itself origin) (by simp) (make_plan_inside start nonempty makes)
      rw [List.nil_append] at grown passable
      let objects := (wantedObjects wanted).reverse.map fun entry =>
        (entry.1, entry.2.properties.kind)
      have ready : ∀ object ∈ objects, origin.at? (ObjectPath.names object.1) = none ∧
          full.Unbarred (ObjectPath.names object.1) ∧
          Disk.PathFits (ContainerHandle.object ⟨.disk root, name⟩ object.1 object.2).uri := by
        intro object member
        obtain ⟨entry, inReverse, rfl⟩ := List.mem_map.mp member
        have isWanted := List.mem_reverse.mp inReverse
        have isPath := List.mem_map_of_mem (f := fun entry => ObjectPath.names entry.1) isWanted
        exact ⟨free entry isWanted, unbarred_of_passable (passable _ isPath),
          fits entry isWanted⟩
      obtain ⟨after, later, deletes, growsAfter, grownAfter, cleared⟩ :=
        delete_objects_inside objects start grows grown ready
      have order : made.context.created.reverse = objects.map fun object => Resource.object
          (ContainerHandle.object ⟨.disk root, name⟩ object.1 object.2) := by
        have created : made.context.created = session.context.created ++ tracked :=
          congrArg (·.created) isContext
        rw [created, untracked, List.nil_append, isTracked, ← List.map_reverse, List.map_map]
        rfl
      rw [← order] at deletes
      obtain ⟨_, cleaned⟩ := Cleanup.cleanup_yields deletes
      refine ⟨_, full, later, cleaned, rfl, growsAfter, grownAfter, ?_, passable, ?_⟩
      · apply cleared.same_paths
        simp [objects]
      · intro path member
        obtain ⟨entry, isWanted, rfl⟩ := List.mem_map.mp member
        have below : clean entry.1 ≠ "" := by
          intro atRoot
          have isFree := free entry isWanted
          rw [(clean_eq_empty_iff _).mp atRoot] at isFree
          cases isFree
        have fitsHere := fits entry isWanted
        change Disk.PathFits
          (ContainerHandle.object ⟨.disk root, name⟩ entry.1 _).uri at fitsHere
        rw [object_uri, if_neg below, clean_eq_render] at fitsHere
        exact fitsHere

end Runs

/-- What a listing tells of an entry that has not been altered: a file as it was, and of a
directory all but the time at which it has last changed. -/
def SameEntry (before after : ObjectProperties) : Prop :=
  after.kind = before.kind ∧ after.nfs = before.nfs ∧ (before.kind = .file → after = before)

theorem same_entry_of_unaltered {before after : Node} (unaltered : before.Unaltered after) :
    SameEntry (DiskResources.nodeProperties before) (DiskResources.nodeProperties after) := by
  refine ⟨?_, ?_, ?_⟩
  · unfold DiskResources.nodeProperties
    rw [unaltered.isDirectory]
  · unfold DiskResources.nodeProperties
    rw [unaltered.mode]
  · intro isFile
    have notDirectory : before.isDirectory = false := by
      apply Bool.eq_false_iff.mpr
      intro isDirectory
      rw [(DiskResources.kind_of_node before).mpr isDirectory] at isFile
      cases isFile
    rw [unaltered.same notDirectory]

open Creation Node in
/-- A cleanup after a creation in a container that was there, at paths where nothing was, leaves
the folders on the way to these paths. It succeeds and forgets what it has deleted. All that was
listed before is listed as before, and the rest of what is listed are the folders that lead to a
path and are neither one of the paths nor below one. So the listing shows the same again just if
all of these were there before. -/
theorem cleanup_leaves_folders (root name : String) (definition : Definition)
    (wanted : ContainerDefinition) (session made : Session) (target : Resource) (ground : Node)
    (listed : Table ObjectProperties) (seen : Storage) :
    let container : ContainerHandle := ⟨.disk root, name⟩
    let paths := (wantedObjects wanted).map fun entry => ObjectPath.names entry.1
    definition.inContainer? session.context.names = some wanted →
    session.context.created = [] →
    Disk.metadata container.uri session.storage.disk = .ok ground session.storage.disk →
    ground.isDirectory = true → ground.Tidy →
    container.list "" true session.storage = .ok listed seen →
    (∀ entry ∈ wantedObjects wanted, ground.at? (ObjectPath.names entry.1) = none ∧
      (entry.2.properties.kind = .folder →
        ∀ mode, entry.2.properties.nfs.fileMode = some mode → GrantsAll mode)) →
    create (.container container) definition session = .ok target made →
    ∃ after shown, cleanup made = .ok () after ∧ after.context.created = [] ∧
      container.list "" true after.storage = .ok shown after.storage ∧
      (∀ key properties, listed.get? key = some properties →
        ∃ later, shown.get? key = some later ∧ SameEntry properties later) ∧
      (∀ names, AreNames names → names ≠ [] →
        (LeftOver paths names → shown.kinds.get? (render names) = some .folder) ∧
        (¬ LeftOver paths names →
          shown.kinds.get? (render names) = listed.kinds.get? (render names))) ∧
      (shown.kinds = listed.kinds ↔
        ∀ names, LeftOver paths names → (ground.at? names).isSome = true) := by
  intro container paths isWrapper untracked isThere isDirectory tidy lists fresh ran
  obtain ⟨nonempty, left, base, start⟩ := Disk.grounds_of_metadata isThere isDirectory tidy
  have named := well_named_of_tidy tidy
  have found := DiskResources.directory_of_list start nonempty lists
  have earlier := DiskResources.list_lists found isDirectory named true
  obtain ⟨_, below⟩ := earlier.of_ok lists
  obtain ⟨after, full, later, cleaned, forgotten, grows, grown, cleared, passable, fits⟩ :=
    cleanup_inside isWrapper untracked start nonempty (fun entry member => (fresh entry member).1)
      (fun entry member => (fresh entry member).2) ran
  have proper : ∀ path ∈ paths, AreNames path := by
    intro path member
    obtain ⟨entry, _, rfl⟩ := List.mem_map.mp member
    exact names_are_names entry.1
  have namedLater := well_named_of_tidy grows.tidy
  have foundLater : Disk.metadata (DiskPath.join container.uri (clean "")) after.storage.disk =
      .ok later after.storage.disk :=
    Disk.metadata_of_directory grows.toGrounds (goes_into_join container.uri are_names_nil)
      (Disk.fits_of_metadata found) (unbarred_of_passable (passable_nil later)) rfl
      grows.isDirectory
  obtain ⟨shown, listsLater, belowLater⟩ :=
    (DiskResources.list_lists foundLater grows.isDirectory namedLater true).unobstructed
      (unobstructed_later nonempty grown
        (fun path member => ⟨proper path member, fits path member⟩) (earlier.free_of_ok lists))
  have isLeft : ∀ {names}, LeftOver paths names → later.kindAt? names = some .folder :=
    fun leftOver => left_over_folder passable cleared leftOver
  have notLeft : ∀ {names}, ¬ LeftOver paths names →
      later.kindAt? names = ground.kindAt? names :=
    fun others => kind_not_left_over grown cleared others
  refine ⟨after, shown, cleaned, forgotten, listsLater, ?kept, ?kinds, ?restored⟩
  case kept =>
    intro key properties isFound
    obtain ⟨names, node, reach, _, stands, rfl, rfl⟩ := found_of_shown below named isFound
    obtain ⟨still, isHeld, unaltered⟩ := grown.kept names node stands
    exact ⟨_, (belowLater.complete names still reach isHeld).1,
      same_entry_of_unaltered unaltered⟩
  case kinds =>
    intro names properOne nonemptyOne
    rw [shown_kind belowLater namedLater properOne nonemptyOne,
      shown_kind below named properOne nonemptyOne]
    exact ⟨isLeft, notLeft⟩
  case restored =>
    rw [same_kinds_iff belowLater namedLater below named]
    constructor
    · intro same names leftOver
      have isFolderLater := isLeft leftOver
      obtain ⟨nonemptyOne, ⟨path, member, rest, rfl⟩, _⟩ := leftOver
      have properOne := (are_names_append.mp (proper _ member)).1
      have wasFolder := (same names properOne nonemptyOne).symm.trans isFolderLater
      obtain ⟨node, stands, _⟩ := Option.map_eq_some_iff.mp wasFolder
      rw [stands]
      rfl
    · intro were names _ _
      by_cases leftOver : LeftOver paths names
      · obtain ⟨node, stands⟩ := Option.isSome_iff_exists.mp (were names leftOver)
        obtain ⟨still, isHeld, unaltered⟩ := grown.kept names node stands
        rw [kind_at?_of_found isHeld, kind_at?_of_found stands]
        unfold kind
        rw [unaltered.isDirectory]
      · exact notLeft leftOver

open Creation Node in
/-- A file in a folder that was missing is created in an empty container. The folder is there
after the cleanup. -/
theorem cleanup_leaves_folders_above_file :
    let storage := Storage.fresh (.ofDirectories ⟨0⟩ ["r", "c"])
    let session : Session := ⟨⟨"scenario", {}, .counting "n", [], []⟩, storage, []⟩
    let container : ContainerHandle := ⟨.disk "/r", "c"⟩
    let wanted : ContainerDefinition := { objects := .flat (Table.singleton "a/b" {}) }
    ∃ mode modified listed seen target made after shown,
      (Definition.container wanted).inContainer? session.context.names = some wanted ∧
      session.context.created = [] ∧
      Disk.metadata container.uri storage.disk =
        .ok (.directory mode modified []) storage.disk ∧
      container.list "" true storage = .ok listed seen ∧
      create (.container container) (.container wanted) session = .ok target made ∧
      cleanup made = .ok () after ∧ after.context.created = [] ∧
      container.list "" true after.storage = .ok shown after.storage ∧
      shown.kinds.get? "a" = some .folder ∧ shown.kinds.get? "a/b" = listed.kinds.get? "a/b" ∧
      shown.kinds ≠ listed.kinds := by
  intro storage session container wanted
  obtain ⟨mode, modified, isThere⟩ := new_directory_is_empty
  have canList : ((container.list "" true).run' storage).isSome = true := by decide +kernel
  have canCreate : ((create (.container container) (.container wanted)).run' session).isSome =
      true := by
    decide +kernel
  obtain ⟨listed, isListed⟩ := Option.isSome_iff_exists.mp canList
  obtain ⟨seen, lists⟩ := ok_of_run' isListed
  obtain ⟨target, isCreated⟩ := Option.isSome_iff_exists.mp canCreate
  obtain ⟨made, ran⟩ := ok_of_run' isCreated
  have paths : (wantedObjects wanted).map (fun entry => ObjectPath.names entry.1) =
      [["a", "b"]] := by
    decide
  have kinds : (wantedObjects wanted).map (fun entry => entry.2.properties.kind) = [.file] := by
    decide
  have fresh : ∀ entry ∈ wantedObjects wanted,
      (directory mode modified []).at? (ObjectPath.names entry.1) = none ∧
        (entry.2.properties.kind = .folder →
          ∀ mode, entry.2.properties.nfs.fileMode = some mode → GrantsAll mode) := by
    intro entry member
    have isPath := List.mem_map_of_mem (f := fun entry => ObjectPath.names entry.1) member
    have isFile := List.mem_map_of_mem (f := fun entry => entry.2.properties.kind) member
    rw [paths, List.mem_singleton] at isPath
    rw [kinds, List.mem_singleton] at isFile
    rw [isPath]
    exact ⟨rfl, fun isFolder => nomatch isFile.symm.trans isFolder⟩
  obtain ⟨after, shown, cleaned, forgotten, listsLater, _, told, restored⟩ :=
    cleanup_leaves_folders "/r" "c" (.container wanted) wanted session made target
      (directory mode modified []) listed seen rfl rfl isThere rfl
      (.directory (by simp) (by simp) (by simp)) lists fresh ran
  rw [paths] at told restored
  have onTheWay : LeftOver [["a", "b"]] ["a"] := by
    refine ⟨by simp, ⟨["a", "b"], by simp, by decide⟩, ?_⟩
    intro path member
    rw [List.mem_singleton.mp member]
    decide
  have atPath : ¬ LeftOver [["a", "b"]] ["a", "b"] :=
    fun others => others.2.2 _ List.mem_cons_self List.prefix_rfl
  refine ⟨mode, modified, listed, seen, target, made, after, shown, rfl, rfl, isThere, lists, ran,
    cleaned, forgotten, listsLater, ?_, ?_, ?_⟩
  · exact (told ["a"] (by decide) (by simp)).1 onTheWay
  · exact (told ["a", "b"] (by decide) (by simp)).2 atPath
  · intro same
    have were := restored.mp same ["a"] onTheWay
    simp [at?_cons, entries] at were

end StorageScenario
