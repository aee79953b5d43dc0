import StorageScenario.Proofs.ContainerDirectories
import StorageScenario.Proofs.DiskContainers
import StorageScenario.Proofs.ObjectReach

/-!
Where raw object paths lead. A joined path is names with slashes between them, whatever went into
it, and joining again changes nothing that has been resolved. As its names only go down, an object
is the root folder of its container or lies inside it, on every back-end.
-/

namespace StorageScenario

open DiskPath ObjectPath FileTree Work

namespace DiskPath

theorem take_downs (base down : List String) :
    (down.map Step.down).foldl Step.take base = base ++ down := by
  induction down generalizing base with
  | nil => exact (List.append_nil base).symm
  | cons name rest ih =>
      rw [List.map_cons, List.foldl_cons, ih]
      exact List.append_assoc base [name] rest

theorem names_into {base path : String} {down : List String}
    (into : GoesInto (steps base) down path) :
    ObjectPath.names path = ObjectPath.names base ++ down := by
  rw [← take_all, steps_into into, List.foldl_append, take_all, take_downs]

end DiskPath

namespace ObjectPath

structure NormalForm (names : List String) (path : String) : Prop where
  proper : AreNames names
  rendered : path = render names
  pieces : names = [] ∨ ObjectPath.pieces path = names
  start : isAbsolute path = false
  finish : endsWithSlash path = false

theorem normal_form_render {names : List String} (proper : AreNames names) :
    NormalForm names (render names) := by
  refine ⟨proper, rfl, ?_, Bool.eq_false_iff.mpr (render_is_relative proper), ?_⟩
  · by_cases nothing : names = []
    · exact Or.inl nothing
    · exact Or.inr (pieces_render nothing proper)
  · rcases names.eq_nil_or_concat' with rfl | ⟨front, last, rfl⟩
    · rfl
    · have split := pieces_render (by simp) proper
      exact Bool.eq_false_iff.mpr (ends_with_name (proper last (by simp)) split)

theorem join_root (path : String) : join path "" = join "" path := by
  have behind : join path "" = render (names path ++ []) := by
    rw [← join_render path are_names_nil]
    rfl
  rw [behind, List.append_nil]
  exact (clean_eq_render path).symm

theorem join_clean_parent (parent child : String) :
    join (join "" parent) child = join parent child := by
  apply eq_of_names (clean_join _ _) (clean_join _ _)
  have top : ∀ steps, resolve (pieces "" ++ steps) = resolve steps := fun _ => rfl
  rw [names_join_join, top, names_join]

end ObjectPath

/-- An object is the root folder of a container, or it is inside under names that lead down from
there. No call on it has an effect outside: it has none in a rehearsal, on an emulated account
none on other containers, and on disk, in a tree without links, it alters nothing that is there
but at and below those names behind the directory of the container. -/
structure ContainerHandle.Confines (container : ContainerHandle) (down : List String)
    (object : ObjectHandle) : Prop where
  proper : AreNames down
  inside : object.container = container
  path : object.path = render down
  isRoot : object.isRoot = true ↔ down = []
  rehearsed : ∀ location, container.service = .rehearsal location →
    ∀ (call : ObjectCall) storage, left (call.run object) storage = storage
  emulated : ∀ account location, container.service = .memory account location →
    ∀ (call : ObjectCall) (storage : Storage),
      storage.SameBeside account location container.name (left (call.run object) storage)
  steps : ∀ root, container.service = .disk root →
    DiskPath.steps object.uri = DiskPath.steps container.uri ++ down.map .down
  located : ∀ root, container.service = .disk root →
    ∀ aim (tree after : FileTree) place, tree.root.Tidy →
      Disk.locate object.uri aim tree = .ok place after →
        place.names = container.directory ++ down
  reach : ∀ root, container.service = .disk root →
    ∀ (call : ObjectCall) (storage : Storage), storage.disk.root.Tidy →
      storage.disk.root.KeptBeside (container.directory ++ down)
        (left (call.run object) storage).disk.root

namespace ContainerHandle

theorem rehearses {object : ObjectHandle} {location : Location}
    (rehearsal : object.container.service = .rehearsal location) (call : ObjectCall)
    (storage : Storage) : left (call.run object) storage = storage := by
  obtain ⟨⟨service, name⟩, path, kind⟩ := object
  cases rehearsal
  cases call <;> rfl

theorem object_confined (container : ContainerHandle) (path : String) (kind : EntityKind) :
    container.Confines (ObjectPath.names path) (container.object path kind) := by
  have into : ∀ root, container.service = .disk root →
      GoesInto (DiskPath.steps container.uri) (ObjectPath.names path)
        (container.object path kind).uri := by
    obtain ⟨service, name⟩ := container
    rintro root ⟨⟩
    exact object_goes_into root name path kind
  have behind : ∀ root, container.service = .disk root →
      ObjectPath.names (container.object path kind).uri =
        container.directory ++ ObjectPath.names path :=
    fun root onDisk => names_into (into root onDisk)
  refine ⟨names_are_names path, rfl, clean_eq_render path, ?isRoot, ?rehearsed, ?emulated,
    fun root onDisk => steps_into (into root onDisk), ?located, ?reach⟩
  case isRoot =>
    rw [← clean_eq_empty_iff]
    exact decide_eq_true_iff
  case rehearsed => exact fun location rehearsal call storage => rehearses rehearsal call storage
  case emulated =>
    obtain ⟨service, name⟩ := container
    rintro account location ⟨⟩ call storage
    exact call.run_same_beside account location name storage path kind
  case located =>
    intro root onDisk aim tree after place plain ran
    rw [FileTree.names_of_locate plain ran, behind root onDisk]
  case reach =>
    intro root onDisk call storage plain
    rw [← behind root onDisk]
    exact call.run_kept_beside onDisk plain

end ContainerHandle

namespace ObjectPath

/-- The laws of joining, and what follows for objects. A join is in normal form and stays as it is
when it is joined to nothing, from either side, or resolved before it goes on. It is associative
just where the inner steps never climb above their own start, or the outer path is the root. So
whatever raw path an object is asked for, it is confined to its container. -/
theorem joined_paths_stay_inside :
    (∀ parent child, ∃ names, NormalForm names (join parent child)) ∧
    (∀ parent child, join "" (join parent child) = join parent child) ∧
    (∀ path, join path "" = join "" path) ∧
    (∀ parent child, join (join "" parent) child = join parent child) ∧
    (∀ outer inner path, join outer (join inner path) = join (join outer inner) path ↔
      clean outer = "" ∨ StaysInside (pieces inner ++ pieces path)) ∧
    ∀ (container : ContainerHandle) path kind, ∃ down,
      container.Confines down (container.object path kind) :=
  ⟨fun parent child => ⟨_, normal_form_render (joined_are_names parent child)⟩, clean_join,
    join_root, join_clean_parent, join_join_iff,
    fun container path kind => ⟨_, container.object_confined path kind⟩⟩

/-- A raw path that climbs is the path of an object inside, and a file outside outlives what is
done with that object. Where inner steps climb, it matters what is joined first. -/
theorem joined_paths_stay_inside_climbing :
    let container : ContainerHandle := ⟨.disk "/srv", "c"⟩
    let object := container.object "../../etc/./passwd" .file
    let folder := fun entries => Node.directory 0o755 ⟨0⟩ entries
    let secret := Node.file 0o600 ⟨0⟩ [1]
    let storage := Storage.fresh ⟨folder [("etc", folder [("passwd", secret)]),
      ("srv", folder [("c", folder [])])], ⟨0⟩⟩
    let after := fun call : ObjectCall => (left (call.run object) storage).disk.root
    join "a" (join "b" "../../c") ≠ join (join "a" "b") "../../c" ∧
      join "a" (join "b" "../c") = join (join "a" "b") "../c" ∧
      storage.disk.root.Tidy ∧ object.path = "etc/passwd" ∧
      DiskPath.steps object.uri = [.down "srv", .down "c", .down "etc", .down "passwd"] ∧
      ∀ call, ∃ later, (after call).at? ["etc", "passwd"] = some later ∧
        secret.Unaltered later := by
  intro container object folder secret storage after
  obtain ⟨_, _, _, _, associative, confined⟩ := joined_paths_stay_inside
  obtain ⟨down, confines⟩ := confined container "../../etc/./passwd" .file
  have isDown : down = ["etc", "passwd"] := by
    have path : render down = "etc/passwd" := by
      rw [← confines.path]
      decide
    have isSame : render down = render ["etc", "passwd"] := by
      rw [path]
      decide
    exact render_injective confines.proper (by decide) isSame
  have isDirectory : container.directory = ["srv", "c"] := by decide
  have empty : (folder []).Tidy := .directory (by decide) (by simp) (by simp)
  have nest : ∀ {name child}, IsName name → child.Tidy → (folder [(name, child)]).Tidy := by
    intro name child isName tidy
    exact .directory (by simp) (by simpa using isName) (by simpa using tidy)
  have etc : (folder [("passwd", secret)]).Tidy := nest (by decide) (.file _ _ _)
  have srv : (folder [("c", folder [])]).Tidy := nest (by decide) empty
  have plain : storage.disk.root.Tidy :=
    .directory (by decide) (by decide) (by simpa using ⟨etc, srv⟩)
  refine ⟨(associative _ _ _).not.mpr (by decide), (associative _ _ _).mpr (by decide), plain,
    ?path, ?steps, ?outside⟩
  case path =>
    rw [confines.path, isDown]
    decide
  case steps =>
    rw [confines.steps "/srv" rfl, isDown]
    decide
  case outside =>
    intro call
    have kept := confines.reach "/srv" rfl call storage plain
    rw [isDown, isDirectory] at kept
    exact kept ["etc", "passwd"] secret (by decide) rfl

end ObjectPath

end StorageScenario
