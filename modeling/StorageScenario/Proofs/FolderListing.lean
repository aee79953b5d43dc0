import StorageScenario.Proofs.Addressing
import StorageScenario.Proofs.PathPieces

/-!
Listings of folders on emulated accounts in terms of names. Paths in a folder are those that
go on with more names, so a listing of a folder in a hierarchical service is a look-up of
names in the container, one name deep or all the way.
-/

namespace StorageScenario

open ObjectPath

namespace ObjectPath

theorem starts_below_iff {folder names : List String} (inFolder : folder ≠ [])
    (folderNames : AreNames folder) (proper : AreNames names) :
    Text.startsWith (render names) (below (render folder)) ↔
      ∃ deeper, deeper ≠ [] ∧ names = folder ++ deeper := by
  unfold Text.startsWith
  rw [Option.isSome_iff_exists]
  simp only [Text.remainder_eq_some_iff, render_eq_below_iff inFolder folderNames proper]
  constructor
  · rintro ⟨_, deeper, some, split, _⟩
    exact ⟨deeper, some, split⟩
  · rintro ⟨deeper, some, split⟩
    exact ⟨_, deeper, some, split, rfl⟩

end ObjectPath

namespace StoredContainer

section Folders

variable {folder names deeper : List String}

theorem inside_folder_append (folderNames : AreNames folder) (nonempty : deeper ≠ []) :
    insideFolder (render folder) ++ render deeper = render (folder ++ deeper) := by
  unfold insideFolder
  by_cases atRoot : folder = []
  · subst atRoot
    simp [render]
  · rw [if_neg (render_ne_empty atRoot folderNames), render_append atRoot nonempty]
    rfl

theorem remainder_inside_iff (folderNames : AreNames folder) (proper : AreNames names)
    (remainder : String) :
    Text.remainder? (insideFolder (render folder)) (render names) = some remainder ∧
        remainder ≠ "" ↔
      ∃ deeper, deeper ≠ [] ∧ names = folder ++ deeper ∧ remainder = render deeper := by
  rw [Text.remainder_eq_some_iff]
  constructor
  · rintro ⟨whole, nonempty⟩
    by_cases atRoot : folder = []
    · subst atRoot
      have same : render names = remainder := by simpa [insideFolder, render] using whole
      refine ⟨names, ?_, rfl, same.symm⟩
      rintro rfl
      exact nonempty same.symm
    · unfold insideFolder at whole
      rw [if_neg (render_ne_empty atRoot folderNames)] at whole
      exact (render_eq_below_iff atRoot folderNames proper remainder).mp whole
  · rintro ⟨deeper, nonempty, rfl, rfl⟩
    refine ⟨(inside_folder_append folderNames nonempty).symm, ?_⟩
    exact render_ne_empty nonempty (are_names_append.mp proper).2

/-- The texts before the slashes of a path are the paths of the folders above it. -/
theorem mem_before_slashes_iff (proper : AreNames names) (part : List Char) :
    part ∈ beforeSlashes (render names).toList ↔
      ∃ front rest, front ≠ [] ∧ rest ≠ [] ∧ names = front ++ rest ∧
        part = (render front).toList := by
  rw [mem_before_slashes]
  constructor
  · rintro ⟨letters, whole⟩
    have nonempty : names ≠ [] := by
      rintro rfl
      simp [render] at whole
    have texts : render names = String.ofList part ++ "/" ++ String.ofList letters := by
      rw [← String.toList_inj, ← whole]
      simp
    have split := congrArg pieces texts
    rw [pieces_render nonempty proper, pieces_slash] at split
    refine ⟨_, _, pieces_ne_nil _, pieces_ne_nil _, split, ?_⟩
    rw [render_pieces, String.toList_ofList]
  · rintro ⟨front, rest, frontSome, restSome, rfl, rfl⟩
    rw [render_append frontSome restSome]
    simp

theorem before_slashes_first {letters : List Char} (plain : '/' ∉ letters) (rest : List Char) :
    ∃ later, beforeSlashes (letters ++ '/' :: rest) = letters :: later := by
  induction letters with
  | nil => exact ⟨_, rfl⟩
  | cons letter others ih =>
      obtain ⟨notSlash, plain⟩ := not_or.mp (mt List.mem_cons.mpr plain)
      obtain ⟨later, first⟩ := ih plain
      rw [List.cons_append, beforeSlashes, first, if_neg (Ne.symm notSlash)]
      exact ⟨_, rfl⟩

/-- A listing that goes down one name shows what has no folder between. -/
theorem before_slashes_nil_iff (nonempty : names ≠ []) (proper : AreNames names) :
    beforeSlashes (render names).toList = [] ↔ names.length = 1 := by
  rw [List.eq_nil_iff_forall_not_mem]
  simp only [mem_before_slashes_iff proper]
  constructor
  · intro nothing
    obtain ⟨name, rest, rfl⟩ := List.exists_cons_of_ne_nil nonempty
    by_cases more : rest = []
    · rw [more, List.length_singleton]
    · exact absurd ⟨[name], rest, by simp, more, rfl, rfl⟩ (nothing _)
  · rintro single part ⟨front, rest, frontSome, restSome, rfl, _⟩
    have frontLong := List.length_pos_iff.mpr frontSome
    have restLong := List.length_pos_iff.mpr restSome
    rw [List.length_append] at single
    omega

theorem shows_itself_inside_iff (folderNames : AreNames folder) (proper : AreNames names)
    (recursive : Bool) :
    showsItself (insideFolder (render folder)) recursive (render names) = true ↔
      ∃ deeper, InReach recursive deeper ∧ names = folder ++ deeper := by
  unfold showsItself InReach
  constructor
  · intro shown
    cases behind : Text.remainder? (insideFolder (render folder)) (render names) with
    | none =>
        rw [behind] at shown
        cases shown
    | some remainder =>
        rw [behind] at shown
        simp only [Bool.and_eq_true, decide_eq_true_eq, Bool.or_eq_true] at shown
        obtain ⟨deeper, nonempty, rfl, rfl⟩ :=
          (remainder_inside_iff folderNames proper remainder).mp ⟨behind, shown.1⟩
        have deeperNames := (are_names_append.mp proper).2
        refine ⟨deeper, ⟨nonempty, ?_⟩, rfl⟩
        rw [← before_slashes_nil_iff nonempty deeperNames, ← List.isEmpty_iff]
        exact shown.2
  · rintro ⟨deeper, ⟨nonempty, reach⟩, rfl⟩
    have deeperNames := (are_names_append.mp proper).2
    obtain ⟨behind, some⟩ := (remainder_inside_iff folderNames proper _).mpr
      ⟨deeper, nonempty, rfl, rfl⟩
    rw [behind]
    simp only [Bool.and_eq_true, decide_eq_true_eq, Bool.or_eq_true]
    refine ⟨some, ?_⟩
    rw [List.isEmpty_iff, before_slashes_nil_iff nonempty deeperNames]
    exact reach

theorem take_before_slashes (proper : AreNames names) (part : List Char) :
    part ∈ (beforeSlashes (render names).toList).take 1 ↔
      ∃ name rest, rest ≠ [] ∧ names = [name] ++ rest ∧ part = (render [name]).toList := by
  cases names with
  | nil => simp [render, beforeSlashes]
  | cons name rest =>
      by_cases more : rest = []
      · subst more
        have nothing := (before_slashes_nil_iff (List.cons_ne_nil name []) proper).mpr rfl
        rw [nothing]
        constructor
        · intro member
          cases member
        · rintro ⟨_, _, restSome, split, _⟩
          exact absurd (List.cons.inj split).2.symm restSome
      · have letters : (render (name :: rest)).toList =
            name.toList ++ '/' :: (render rest).toList := by
          rw [← List.singleton_append, render_append (List.cons_ne_nil _ _) more, render_single]
          simp
        obtain ⟨later, first⟩ :=
          before_slashes_first (proper name List.mem_cons_self).2.2.2 (render rest).toList
        rw [letters, first, List.take_succ_cons, List.take_zero, List.mem_singleton]
        constructor
        · rintro rfl
          exact ⟨name, rest, more, rfl, by rw [render_single]⟩
        · rintro ⟨_, _, _, split, rfl⟩
          obtain ⟨rfl, _⟩ := List.cons.inj split
          rw [render_single]

theorem mem_parts_iff (proper : AreNames names) (recursive : Bool) (part : List Char) :
    part ∈ (if recursive then beforeSlashes (render names).toList
        else (beforeSlashes (render names).toList).take 1) ↔
      ∃ front rest, InReach recursive front ∧ rest ≠ [] ∧ names = front ++ rest ∧
        part = (render front).toList := by
  unfold InReach
  cases recursive with
  | true =>
      rw [if_pos rfl, mem_before_slashes_iff proper]
      simp only [true_or, and_true]
  | false =>
      rw [if_neg (by simp), take_before_slashes proper]
      constructor
      · rintro ⟨name, rest, restSome, split, isPart⟩
        exact ⟨[name], rest, by simp, restSome, split, isPart⟩
      · rintro ⟨front, rest, ⟨_, single⟩, restSome, split, isPart⟩
        obtain ⟨name, rfl⟩ := List.length_eq_one_iff.mp (single.resolve_left (by simp))
        exact ⟨name, rest, restSome, split, isPart⟩

/-- The folders that a listing meets on the way to an object are those in its reach that the
object is below. -/
theorem mem_folders_inside_iff (folderNames : AreNames folder) (proper : AreNames names)
    (recursive : Bool) (path : String) :
    path ∈ foldersOnWay (insideFolder (render folder)) recursive true (render names) ↔
      ∃ deeper rest, InReach recursive deeper ∧ rest ≠ [] ∧
        names = folder ++ (deeper ++ rest) ∧
        path = render (folder ++ deeper) := by
  have further : ∀ {deeper rest}, deeper ≠ [] → names = folder ++ (deeper ++ rest) →
      Text.remainder? (insideFolder (render folder)) (render names) =
        some (render (deeper ++ rest)) := by
    intro deeper rest nonempty split
    exact ((remainder_inside_iff folderNames proper _).mpr
      ⟨_, by simp [nonempty], split, rfl⟩).1
  unfold foldersOnWay
  cases behind : Text.remainder? (insideFolder (render folder)) (render names) with
  | none =>
      constructor
      · intro member
        cases member
      · rintro ⟨deeper, rest, ⟨nonempty, _⟩, _, split, _⟩
        rw [further nonempty split] at behind
        cases behind
  | some remainder =>
      have parts : ∀ letters : List Char, (if recursive = true then
            (if true = true then (beforeSlashes letters).map fun part =>
              insideFolder (render folder) ++ String.ofList part else [])
          else ((beforeSlashes letters).map fun part =>
            insideFolder (render folder) ++ String.ofList part).take 1) =
          (if recursive then beforeSlashes letters else (beforeSlashes letters).take 1).map
            fun part => insideFolder (render folder) ++ String.ofList part := by
        intro letters
        cases recursive <;> simp [List.map_take]
      dsimp only
      rw [parts, List.mem_map]
      by_cases nothing : remainder = ""
      · subst nothing
        constructor
        · rintro ⟨_, member, _⟩
          cases recursive <;> cases member
        · rintro ⟨deeper, rest, ⟨nonempty, _⟩, _, split, _⟩
          have shown := (remainder_inside_iff folderNames proper _).mpr
            ⟨deeper ++ rest, by simp [nonempty], split, rfl⟩
          exact absurd (Option.some.inj (behind.symm.trans shown.1)).symm shown.2
      · obtain ⟨below, belowSome, rfl, rfl⟩ :=
          (remainder_inside_iff folderNames proper remainder).mp ⟨behind, nothing⟩
        have belowNames := (are_names_append.mp proper).2
        simp only [mem_parts_iff belowNames]
        constructor
        · rintro ⟨_, ⟨deeper, rest, reach, restSome, split, rfl⟩, rfl⟩
          refine ⟨deeper, rest, reach, restSome, by rw [split], ?_⟩
          rw [String.ofList_toList, inside_folder_append folderNames reach.1]
        · rintro ⟨deeper, rest, reach, restSome, split, rfl⟩
          refine ⟨_, ⟨deeper, rest, reach, restSome, List.append_cancel_left split, rfl⟩,
            ?_⟩
          rw [String.ofList_toList, inside_folder_append folderNames reach.1]

end Folders

def CleanKeys (container : StoredContainer) : Prop :=
  ∀ path ∈ container.objects.keys, clean path = path

section Listings

variable {container : StoredContainer} {folder deeper : List String} {recursive : Bool}

theorem names_of_key (keysClean : container.CleanKeys) {key : String}
    (isKey : key ∈ container.objects.keys) : ∃ names, AreNames names ∧ key = render names :=
  ⟨names key, names_are_names key, (render_names (keysClean key isKey)).symm⟩

theorem implicit_iff (keysClean : container.CleanKeys) {names : List String}
    (nonempty : names ≠ [])
    (proper : AreNames names) :
    container.isImplicitFolder (render names) = true ↔
      ∃ deeper, deeper ≠ [] ∧ AreNames deeper ∧
        render (names ++ deeper) ∈ container.objects.keys := by
  unfold isImplicitFolder
  rw [List.any_eq_true]
  constructor
  · rintro ⟨key, isKey, begins⟩
    obtain ⟨all, allNames, rfl⟩ := names_of_key keysClean isKey
    obtain ⟨deeper, some, rfl⟩ := (starts_below_iff nonempty proper allNames).mp begins
    exact ⟨deeper, some, (are_names_append.mp allNames).2, isKey⟩
  · rintro ⟨deeper, some, deeperNames, isKey⟩
    refine ⟨_, isKey, ?_⟩
    exact (starts_below_iff nonempty proper (are_names_append.mpr ⟨proper, deeperNames⟩)).mpr
      ⟨deeper, some, rfl⟩

theorem list_inside_get? (keysClean : container.CleanKeys) (folderNames : AreNames folder)
    (deeperNames : AreNames deeper) (reach : InReach recursive deeper) :
    (container.listFrom (insideFolder (render folder)) recursive true).get?
        (render (folder ++ deeper)) =
      container.objectProperties? true (render (folder ++ deeper)) := by
  have proper := are_names_append.mpr ⟨folderNames, deeperNames⟩
  have nonempty : folder ++ deeper ≠ [] := by simp [reach.1]
  have shown := (shows_itself_inside_iff folderNames proper recursive).mpr ⟨deeper, reach, rfl⟩
  have met : (container.objects.keys.any fun key => decide (render (folder ++ deeper) ∈
      foldersOnWay (insideFolder (render folder)) recursive true key)) =
        container.isImplicitFolder (render (folder ++ deeper)) := by
    rw [Bool.eq_iff_iff, implicit_iff keysClean nonempty proper, List.any_eq_true]
    simp only [decide_eq_true_eq]
    constructor
    · rintro ⟨key, isKey, onWay⟩
      obtain ⟨all, allNames, rfl⟩ := names_of_key keysClean isKey
      obtain ⟨middle, rest, _, restSome, rfl, same⟩ :=
        (mem_folders_inside_iff folderNames allNames recursive _).mp onWay
      rw [← List.append_assoc] at allNames isKey
      obtain ⟨upper, restNames⟩ := are_names_append.mp allNames
      rw [← render_injective proper upper same] at isKey
      exact ⟨rest, restSome, restNames, isKey⟩
    · rintro ⟨rest, restSome, restNames, isKey⟩
      refine ⟨_, isKey, ?_⟩
      exact (mem_folders_inside_iff folderNames (are_names_append.mpr ⟨proper, restNames⟩)
        recursive _).mpr ⟨deeper, rest, reach, restSome, List.append_assoc _ _ _, rfl⟩
  rw [list_from_get?, shown, if_pos rfl, met,
    object_properties_below true (render_ne_empty nonempty proper), Bool.true_and]

theorem listed_inside (keysClean : container.CleanKeys) (folderNames : AreNames folder)
    {path : String} {properties : ObjectProperties}
    (listed : (container.listFrom (insideFolder (render folder)) recursive true).get? path =
      some properties) :
    ∃ deeper, InReach recursive deeper ∧ AreNames deeper ∧
      path = render (folder ++ deeper) := by
  rw [list_from_get?] at listed
  rcases Option.or_eq_some_iff.mp listed with itself | ⟨_, onWay⟩
  · obtain ⟨object, held, _⟩ := Option.map_eq_some_iff.mp itself
    split at held
    · rename_i shown
      obtain ⟨all, allNames, rfl⟩ := names_of_key keysClean
        (Table.mem_keys_of_get? held)
      obtain ⟨deeper, reach, rfl⟩ :=
        (shows_itself_inside_iff folderNames allNames recursive).mp shown
      exact ⟨deeper, reach, (are_names_append.mp allNames).2, rfl⟩
    · cases held
  · split at onWay
    · rename_i met
      obtain ⟨key, isKey, isMet⟩ := List.any_eq_true.mp met
      obtain ⟨all, allNames, rfl⟩ := names_of_key keysClean isKey
      obtain ⟨deeper, rest, reach, _, rfl, same⟩ :=
        (mem_folders_inside_iff folderNames allNames recursive path).mp (of_decide_eq_true isMet)
      have below := (are_names_append.mp allNames).2
      exact ⟨deeper, reach, (are_names_append.mp below).1, same⟩
    · cases onWay

theorem listed_inside_iff (keysClean : container.CleanKeys) (folderNames : AreNames folder)
    (path : String) (properties : ObjectProperties) :
    (container.listFrom (insideFolder (render folder)) recursive true).get? path =
        some properties ↔
      ∃ deeper, InReach recursive deeper ∧ AreNames deeper ∧
        path = render (folder ++ deeper) ∧
        container.objectProperties? true path = some properties := by
  constructor
  · intro listed
    obtain ⟨deeper, reach, deeperNames, rfl⟩ := listed_inside keysClean folderNames listed
    rw [list_inside_get? keysClean folderNames deeperNames reach] at listed
    exact ⟨deeper, reach, deeperNames, rfl, listed⟩
  · rintro ⟨deeper, reach, deeperNames, rfl, shown⟩
    rw [list_inside_get? keysClean folderNames deeperNames reach, shown]

/-- Relative to a folder everything is listed under its deeper names. -/
theorem list_children_iff (keysClean : container.CleanKeys) (folderNames : AreNames folder)
    (path : String) (properties : ObjectProperties) :
    (container.listChildren (render folder) recursive).get? path = some properties ↔
      ∃ deeper, InReach recursive deeper ∧ AreNames deeper ∧ path = render deeper ∧
        container.objectProperties? true (render (folder ++ deeper)) = some properties := by
  have member : ∀ path properties,
      (path, properties) ∈ (container.listFrom (insideFolder (render folder)) recursive
        true).entries.filterMap (fun entry =>
          (Text.remainder? (insideFolder (render folder)) entry.1).map
            fun remainder => (remainder, entry.2)) ↔
      (container.listFrom (insideFolder (render folder)) recursive true).get?
        (insideFolder (render folder) ++ path) = some properties := by
    intro path properties
    rw [Table.get?_eq_some_iff, List.mem_filterMap]
    simp only [Option.map_eq_some_iff, Text.remainder_eq_some_iff, Prod.mk.injEq]
    constructor
    · rintro ⟨⟨key, value⟩, isEntry, _, rfl, rfl, rfl⟩
      exact isEntry
    · intro isEntry
      exact ⟨_, isEntry, path, rfl, rfl, rfl⟩
  unfold listChildren
  rw [clean_render folderNames, Table.get?_of_list_iff]
  · rw [member, listed_inside_iff keysClean folderNames]
    constructor
    · rintro ⟨deeper, reach, deeperNames, same, shown⟩
      rw [same] at shown
      rw [← inside_folder_append folderNames reach.1] at same
      have isPath : path = render deeper := by
        rw [← String.toList_inj] at same ⊢
        simpa using same
      exact ⟨deeper, reach, deeperNames, isPath, shown⟩
    · rintro ⟨deeper, reach, deeperNames, rfl, shown⟩
      rw [inside_folder_append folderNames reach.1]
      exact ⟨deeper, reach, deeperNames, rfl, shown⟩
  · intro key first second inFirst inSecond
    exact Option.some.inj (((member _ _).mp inFirst).symm.trans ((member _ _).mp inSecond))

end Listings

section Kinds

def kindAt? (container : StoredContainer) (names : List String) : Option EntityKind :=
  (container.objectProperties? true (render names)).map (·.kind)

variable {container : StoredContainer} {names others : List String}

theorem put_object_clean_keys (keysClean : container.CleanKeys) {path : String}
    (isClean : clean path = path) (object : StoredObject) :
    (container.putObject path object).CleanKeys := by
  intro key isKey
  rcases (mem_keys_put_object object key).mp isKey with ⟨_, rfl⟩ | old
  · exact isClean
  · exact keysClean key old

/-- Putting an object shows it with the folders above it, where nothing was stored. -/
theorem put_object_kind_at? (keysClean : container.CleanKeys) (nonempty : names ≠ [])
    (proper : AreNames names) (object : StoredObject) (othersSome : others ≠ [])
    (othersProper : AreNames others) :
    (container.putObject (render names) object).kindAt? others =
      if others = names then some object.properties.kind
      else if others <+: names then some ((container.kindAt? others).getD .folder)
      else container.kindAt? others := by
  have after := put_object_clean_keys keysClean (clean_render proper) object
  have below : render others ≠ "" := render_ne_empty othersSome othersProper
  have samePath : render names = render others ↔ others = names :=
    ⟨fun same => (render_injective proper othersProper same).symm, fun same => by rw [same]⟩
  have met : (container.putObject (render names) object).isImplicitFolder (render others) =
      (container.isImplicitFolder (render others) ||
        decide (others <+: names ∧ others ≠ names)) := by
    rw [Bool.eq_iff_iff, implicit_iff after othersSome othersProper, Bool.or_eq_true,
      implicit_iff keysClean othersSome othersProper, decide_eq_true_iff]
    simp only [mem_keys_put_object]
    constructor
    · rintro ⟨deeper, some, deeperNames, ⟨_, same⟩ | old⟩
      · have allNames := are_names_append.mpr ⟨othersProper, deeperNames⟩
        have whole := render_injective allNames proper same
        subst whole
        exact Or.inr ⟨List.prefix_append _ _, by simp [some]⟩
      · exact Or.inl ⟨deeper, some, deeperNames, old⟩
    · rintro (⟨deeper, some, deeperNames, old⟩ | ⟨⟨deeper, rfl⟩, apart⟩)
      · exact ⟨deeper, some, deeperNames, Or.inr old⟩
      · have some : deeper ≠ [] := by
          rintro rfl
          exact apart (List.append_nil others).symm
        exact ⟨deeper, some, (are_names_append.mp proper).2,
          Or.inl ⟨render_ne_empty nonempty proper, rfl⟩⟩
  unfold kindAt?
  rw [object_properties_below true below, object_properties_below true below,
    container.put_object_get? _ object below, met]
  simp only [samePath, Bool.true_and]
  by_cases same : others = names
  · simp [same]
  · rw [if_neg same, if_neg same]
    by_cases above : others <+: names
    · rw [if_pos above]
      cases container.objects.get? (render others) <;>
        cases container.isImplicitFolder (render others) <;>
          simp [above, same, ObjectProperties.folder]
    · simp [above]

end Kinds

end StoredContainer

end StorageScenario
