import StorageScenario.Proofs.CanonicalTable
import StorageScenario.Proofs.FolderListing
import StorageScenario.Proofs.PathClimbing

/-!
Mappings in a folder, and the paths that leave it. A path takes its steps from the folder that
it is joined behind, so if it climbs out of the folder it is inside in the end only by coming
down again through the names that it has left. Clean paths climb nowhere. So no shape of a
mapping lets a path out of its folder but a table that spells it so, with nothing but overlays
in between.
-/

namespace StorageScenario

namespace ObjectPath

/-- The folder itself or anything below it. Everything is inside the root. -/
def Inside (folder path : String) : Prop :=
  clean folder = "" ∨ path = clean folder ∨ Text.startsWith path (below (clean folder))

instance (folder path : String) : Decidable (Inside folder path) :=
  inferInstanceAs (Decidable (_ ∨ _ ∨ _))

/-- Behind the folder, the path comes down through all the names that its steps climb out of. -/
def ComesBack (folder path : String) : Prop :=
  (names folder).drop ((names folder).length - climb 0 (pieces path)) <+: names path

instance (folder path : String) : Decidable (ComesBack folder path) :=
  inferInstanceAs (Decidable (_ <+: _))

theorem inside_iff (folder : String) {path : String} (pathClean : clean path = path) :
    Inside folder path ↔ names folder <+: names path := by
  have folderNames := names_are_names folder
  have pathNames := names_are_names path
  unfold Inside
  rw [clean_eq_empty_iff, clean_eq_render]
  by_cases atRoot : names folder = []
  · simp [atRoot]
  · have here : path = render (names folder) ↔ names path = names folder := by
      constructor
      · intro same
        rw [same, names_render folderNames]
      · intro same
        rw [← same, render_names pathClean]
    have deeper := starts_below_iff atRoot folderNames pathNames
    rw [render_names pathClean] at deeper
    rw [here, deeper]
    constructor
    · rintro (none | same | ⟨rest, _, split⟩)
      · exact absurd none atRoot
      · exact same ▸ List.prefix_rfl
      · exact ⟨rest, split.symm⟩
    · rintro ⟨rest, split⟩
      by_cases atFolder : rest = []
      · rw [atFolder, List.append_nil] at split
        exact Or.inr (Or.inl split.symm)
      · exact Or.inr (Or.inr ⟨rest, atFolder, split.symm⟩)

theorem join_inside_iff (folder path : String) :
    Inside folder (join folder path) ↔ ComesBack folder path := by
  let kept := (names folder).length - climb 0 (pieces path)
  have joined : names (join folder path) = (names folder).take kept ++ names path := by
    rw [names_join, resolve_append]
    rfl
  have split : names folder = (names folder).take kept ++ (names folder).drop kept :=
    (List.take_append_drop kept _).symm
  rw [inside_iff folder (clean_join folder path), joined]
  nth_rewrite 1 [split]
  exact List.prefix_append_right_inj _

theorem comes_back_of_stays {path : String} (stays : StaysInside (pieces path))
    (folder : String) : ComesBack folder path := by
  unfold ComesBack
  rw [(stays_inside_iff _).mp stays, Nat.sub_zero, List.drop_length]
  exact List.nil_prefix

/-- A path that climbs does not come back to a folder whose name it does not know. -/
theorem comes_back_everywhere_iff (path : String) :
    (∀ folder, ComesBack folder path) ↔ StaysInside (pieces path) := by
  constructor
  · intro everywhere
    rw [stays_inside_iff]
    by_contra climbs
    obtain ⟨name, isName, unknown⟩ :
        ∃ name, IsName name ∧ (names path).head? ≠ some name := by
      by_cases known : (names path).head? = some "a"
      · exact ⟨"b", by decide, by simp [known]⟩
      · exact ⟨"a", by decide, known⟩
    have back := everywhere name
    have allLeft : [name].length - climb 0 (pieces path) = 0 := by
      rw [List.length_singleton]
      omega
    unfold ComesBack at back
    rw [names_name isName, allLeft, List.drop_zero] at back
    obtain ⟨rest, begins⟩ := back
    rw [← begins] at unknown
    exact unknown rfl
  · intro stays folder
    exact comes_back_of_stays stays folder

end ObjectPath

namespace Mapping

open ObjectPath

theorem keys_stay_inside (mapping : Mapping) :
    (∀ path ∈ mapping.flatten.keys, StaysInside (pieces path)) ↔
      ∀ path ∈ mapping.asWritten, StaysInside (pieces path) := by
  constructor
  · intro stay path written
    exact stay path (written_is_key mapping path written)
  · intro stay path member
    rcases key_clean_or_written mapping path member with isClean | written
    · exact clean_stays_inside isClean
    · exact stay path written

theorem apart_in_folder {mapping : Mapping} (canonical : mapping.flatten.Canonical)
    (stay : ∀ path ∈ mapping.asWritten, StaysInside (pieces path))
    {folder first second : String}
    (firstKey : first ∈ mapping.flatten.keys) (secondKey : second ∈ mapping.flatten.keys)
    (same : join folder first = join folder second) : first = second := by
  have stayKeys := (keys_stay_inside mapping).mpr stay
  have sameObject := clean_eq_of_join (stayKeys first firstKey) (stayKeys second secondKey) same
  exact canonical first firstKey second secondKey sameObject

/-- A mapping stays inside the folder that it is placed in if all the paths that its tables
write there come back to the folder. It stays inside every folder if none of them ever climbs
above its own start. -/
theorem under_folder_inside (mapping : Mapping) :
    (∀ folder, (∀ path ∈ (Mapping.under folder mapping).flatten.keys, Inside folder path) ↔
      ∀ path ∈ mapping.asWritten, ComesBack folder path) ∧
    ((∀ folder, ∀ path ∈ (Mapping.under folder mapping).flatten.keys, Inside folder path) ↔
      ∀ path ∈ mapping.asWritten, StaysInside (pieces path)) := by
  have inFolder : ∀ folder,
      (∀ path ∈ (Mapping.under folder mapping).flatten.keys, Inside folder path) ↔
        ∀ path ∈ mapping.asWritten, ComesBack folder path := by
    intro folder
    constructor
    · intro inside path written
      have isKey := written_is_key mapping path written
      have joined := (mem_under_keys folder mapping _).mpr ⟨path, isKey, rfl⟩
      exact (join_inside_iff folder path).mp (inside _ joined)
    · intro back path member
      obtain ⟨key, isKey, rfl⟩ := (mem_under_keys folder mapping path).mp member
      apply (join_inside_iff folder key).mpr
      rcases key_clean_or_written mapping key isKey with isClean | written
      · exact comes_back_of_stays (clean_stays_inside isClean) folder
      · exact back key written
  refine ⟨inFolder, ?_⟩
  constructor
  · intro inside path written
    apply (comes_back_everywhere_iff path).mp
    intro folder
    exact (inFolder folder).mp (inside folder) path written
  · intro stay folder
    apply (inFolder folder).mpr
    intro path written
    exact comes_back_of_stays (stay path written) folder

/-- Three paths that climb out of the folder `a`: the first stays out, the second comes back
by the name of the folder, and the third has lost its way up at the start of another folder. -/
theorem under_folder_inside_climbing :
    let written (path : String) : Mapping := .flat (Table.singleton path {})
    (Mapping.under "a" (written "../x")).flatten = Table.singleton "x" {} ∧
      ¬ (∀ path ∈ (Mapping.under "a" (written "../x")).flatten.keys, Inside "a" path) ∧
      (∀ path ∈ (Mapping.under "a" (written "../a/y")).flatten.keys, Inside "a" path) ∧
      (¬ ∀ folder, ∀ path ∈ (Mapping.under folder (written "../a/y")).flatten.keys,
        Inside folder path) ∧
      ∀ folder, ∀ path ∈ (Mapping.under folder (.under "b" (written "../../x"))).flatten.keys,
        Inside folder path := by
  intro written
  have out := (under_folder_inside (written "../x")).1 "a"
  have back := under_folder_inside (written "../a/y")
  have lost := (under_folder_inside (.under "b" (written "../../x"))).2
  refine ⟨rfl, ?_, (back.1 "a").mpr (by decide), ?_, lost.mpr (by decide)⟩
  · rw [out]
    decide
  · rw [back.2]
    decide

end Mapping

end StorageScenario
