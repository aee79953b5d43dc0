import Mathlib.Data.List.Induction
import Mathlib.Data.List.TakeWhile
import StorageScenario.DiskPath
import StorageScenario.Proofs.PathNormalForm

/-!
Paths as the pieces between their slashes. Texts with a slash between them have the pieces
of both, so a path that is joined behind a directory has its names behind the pieces of the
directory, and leaving out its last name leaves the pieces before it.
-/

namespace StorageScenario

open ObjectPath

namespace ObjectPath

theorem split_slash_append (first second : List Char) :
    splitSlash (first ++ '/' :: second) = splitSlash first ++ splitSlash second := by
  induction first with
  | nil => simp [splitSlash]
  | cons letter rest ih =>
      by_cases slash : letter = '/'
      · simp [splitSlash, slash, ih]
      · rw [List.cons_append, splitSlash, splitSlash, if_neg slash, if_neg slash, ih]
        cases split : splitSlash rest with
        | nil =>
            rw [split_slash_eq_split_on] at split
            exact absurd split (List.splitOn_ne_nil '/' rest)
        | cons piece pieces => rfl

theorem pieces_slash (first second : String) :
    pieces (first ++ "/" ++ second) = pieces first ++ pieces second := by
  have letters : (first ++ "/" ++ second).toList = first.toList ++ '/' :: second.toList := by
    simp
  unfold pieces
  rw [letters, split_slash_append, List.map_append]

theorem pieces_ne_nil (path : String) : pieces path ≠ [] := by
  unfold pieces
  rw [split_slash_eq_split_on]
  simp

theorem render_pieces (path : String) : render (pieces path) = path := by
  have slash : "/".toList = ['/'] := by rfl
  rw [← String.toList_inj]
  unfold render pieces
  rw [String.toList_intercalate, slash, List.map_map, split_slash_eq_split_on]
  simp [Function.comp_def, List.intercalate_splitOn]

theorem render_append {first second : List String} (firstSome : first ≠ [])
    (secondSome : second ≠ []) :
    render (first ++ second) = render first ++ "/" ++ render second := by
  induction first with
  | nil => exact absurd rfl firstSome
  | cons name rest ih =>
      cases rest with
      | nil =>
          obtain ⟨next, others, rfl⟩ := List.exists_cons_of_ne_nil secondSome
          simp [render]
      | cons next others =>
          have later := ih (List.cons_ne_nil _ _)
          simp only [render, List.cons_append, String.intercalate_cons_cons] at later ⊢
          rw [later]
          simp only [String.append_assoc]

theorem render_injective {first second : List String} (firstNames : AreNames first)
    (secondNames : AreNames second) (same : render first = render second) : first = second := by
  rw [← names_render firstNames, same, names_render secondNames]

theorem render_ne_empty {names : List String} (nonempty : names ≠ []) (proper : AreNames names) :
    render names ≠ "" := by
  intro isEmpty
  have split := pieces_render nonempty proper
  rw [isEmpty] at split
  exact (proper "" (split ▸ List.mem_singleton_self _)).1 rfl

/-- What stands behind a folder and a slash in a path is the path of the names behind those
of the folder. -/
theorem render_eq_below_iff {folder names : List String} (inFolder : folder ≠ [])
    (folderNames : AreNames folder) (proper : AreNames names) (rest : String) :
    render names = below (render folder) ++ rest ↔
      ∃ deeper, deeper ≠ [] ∧ names = folder ++ deeper ∧ rest = render deeper := by
  constructor
  · intro whole
    have split := congrArg pieces whole
    rw [below, pieces_slash, pieces_render inFolder folderNames] at split
    by_cases isEmpty : names = []
    · subst isEmpty
      have empty : pieces (render []) = [""] := rfl
      rw [empty] at split
      obtain ⟨name, others, rfl⟩ := List.exists_cons_of_ne_nil inFolder
      exact absurd (List.cons.inj split).1.symm (are_names_cons.mp folderNames).1.1
    · rw [pieces_render isEmpty proper] at split
      exact ⟨pieces rest, pieces_ne_nil rest, split, (render_pieces rest).symm⟩
  · rintro ⟨deeper, some, rfl, rfl⟩
    exact render_append inFolder some

/-- How far a listing goes down from its folder: to the next name, or all the way. -/
def InReach (recursive : Bool) (deeper : List String) : Prop :=
  deeper ≠ [] ∧ (recursive = true ∨ deeper.length = 1)

end ObjectPath

namespace DiskPath

theorem ends_with_slash_iff (path : String) :
    endsWithSlash path = true ↔ ∃ front, path = front ++ "/" := by
  unfold endsWithSlash
  rw [decide_eq_true_iff, List.getLast?_eq_some_iff]
  constructor
  · rintro ⟨letters, whole⟩
    exact ⟨String.ofList letters, by rw [← String.toList_inj, whole]; simp⟩
  · rintro ⟨front, rfl⟩
    exact ⟨front.toList, by simp⟩

theorem is_absolute_iff (path : String) :
    isAbsolute path = true ↔ ∃ rest, path = "" ++ "/" ++ rest := by
  unfold isAbsolute
  rw [decide_eq_true_iff, List.head?_eq_some_iff]
  constructor
  · rintro ⟨letters, whole⟩
    exact ⟨String.ofList letters, by rw [← String.toList_inj, whole]; simp⟩
  · rintro ⟨rest, rfl⟩
    exact ⟨rest.toList, by simp⟩

theorem pieces_of_slash (front : String) : pieces (front ++ "/") = pieces front ++ [""] := by
  have behind := pieces_slash front ""
  rw [String.append_empty] at behind
  exact behind

theorem ends_with_name {path name : String} {above : List String} (isName : IsName name)
    (ends : pieces path = above ++ [name]) : ¬ endsWithSlash path = true := by
  rw [ends_with_slash_iff]
  rintro ⟨front, rfl⟩
  rw [pieces_of_slash] at ends
  exact isName.1 (List.append_inj_right' ends rfl |> List.singleton_inj.mp).symm

theorem route_eq_steps {path name : String} {above : List String} (isName : IsName name)
    (ends : pieces path = above ++ [name]) : route path = steps path := by
  unfold route
  rw [if_neg (ends_with_name isName ends)]

theorem render_is_relative {names : List String} (proper : AreNames names) :
    ¬ isAbsolute (render names) = true := by
  by_cases nothing : names = []
  · subst nothing
    decide
  · rw [is_absolute_iff]
    rintro ⟨rest, whole⟩
    have split := congrArg pieces whole
    rw [pieces_render nothing proper, pieces_slash] at split
    exact (proper "" (split ▸ List.mem_append_left _ (by decide))).1 rfl

theorem steps_of_pieces {path : String} {above names : List String} (proper : AreNames names)
    (ends : pieces path = above ++ names) :
    steps path = above.filterMap step? ++ names.map .down := by
  have downs : names.filterMap step? = names.map .down := by
    rw [← List.filterMap_eq_map]
    apply List.filterMap_congr
    intro name member
    obtain ⟨nonempty, notHere, notUp, _⟩ := proper name member
    simp [step?, nonempty, notHere, notUp]
  unfold steps
  rw [ends, List.filterMap_append, downs]

theorem join_ne_empty {base : String} (nonempty : base ≠ "") (name : String) :
    join base name ≠ "" := by
  unfold join
  split
  · rename_i absolute
    rintro rfl
    cases absolute
  · split
    · simp [nonempty]
    · simp

theorem join_to_slash {slashed path : String} (slash : endsWithSlash slashed = true)
    (relative : ¬ isAbsolute path = true) : join slashed path = slashed ++ path := by
  unfold join
  rw [if_neg relative, if_pos (Or.inr slash)]

theorem join_relative {base : String} (nonempty : base ≠ "") :
    ∃ slashed, endsWithSlash slashed = true ∧
      ∀ path, ¬ isAbsolute path = true → join base path = slashed ++ path := by
  by_cases slash : endsWithSlash base = true
  · exact ⟨base, slash, fun path relative => join_to_slash slash relative⟩
  · refine ⟨base ++ "/", (ends_with_slash_iff _).mpr ⟨base, rfl⟩, fun path relative => ?_⟩
    unfold join
    rw [if_neg relative, if_neg (by simp [nonempty, slash])]

theorem join_each {slashed : String} (slash : endsWithSlash slashed = true) {names : List String}
    (proper : AreNames names) : names.foldl join slashed = slashed ++ render names := by
  induction names using List.reverseRecOn with
  | nil => exact String.append_empty.symm
  | append_singleton front last ih =>
      obtain ⟨properFront, properLast⟩ := are_names_append.mp proper
      have relative := render_is_relative properLast
      rw [render_single] at relative
      rw [List.foldl_append, ih properFront, List.foldl_cons, List.foldl_nil]
      rcases front.eq_nil_or_concat' with rfl | ⟨above, name, rfl⟩
      · have atTop : render [] = "" := rfl
        rw [List.nil_append, render_single, atTop, String.append_empty]
        exact join_to_slash slash relative
      · -- What has been joined ends with a name, so a slash is added.
        obtain ⟨start, rfl⟩ := (ends_with_slash_iff slashed).mp slash
        have ends : pieces (start ++ "/" ++ render (above ++ [name])) =
            pieces start ++ above ++ [name] := by
          rw [pieces_slash, pieces_render (by simp) properFront, List.append_assoc]
        have plain := ends_with_name (properFront name (by simp)) ends
        have nonempty : start ++ "/" ++ render (above ++ [name]) ≠ "" := by simp
        unfold join
        rw [if_neg relative, if_neg (not_or.mpr ⟨nonempty, plain⟩),
          render_append (by simp) (List.cons_ne_nil last []), render_single]
        simp only [String.append_assoc]

theorem join_each_size {slashed : String} (slash : endsWithSlash slashed = true)
    {front rest : List String} (proper : AreNames (front ++ rest)) :
    (front.foldl join slashed).utf8ByteSize ≤
      (slashed ++ render (front ++ rest)).utf8ByteSize := by
  rw [join_each slash (are_names_append.mp proper).1]
  by_cases noFront : front = []
  · subst noFront
    have atTop : render [] = "" := rfl
    rw [atTop, String.append_empty, String.utf8ByteSize_append]
    omega
  · by_cases noRest : rest = []
    · rw [noRest, List.append_nil]
    · rw [render_append noFront noRest]
      simp only [String.utf8ByteSize_append]
      omega

/-- Only a slash at the end of a path asks for a folder. -/
theorem steps_move {path : String} {step : Step} (isStep : step ∈ steps path) :
    step ≠ .asFolder := by
  obtain ⟨piece, _, same⟩ := List.mem_filterMap.mp isStep
  unfold step? at same
  rintro rfl
  split at same
  · cases same
  · split at same
    · cases same
    · split at same <;> cases same

/-- Names joined behind a directory stand behind its pieces, of which a last empty one goes. -/
theorem pieces_join (base : String) {names : List String} (nonempty : names ≠ [])
    (proper : AreNames names) :
    ∃ above, pieces (join base (render names)) = above ++ names ∧
      above.filterMap step? = steps base := by
  unfold join
  rw [if_neg (render_is_relative proper)]
  by_cases isEmpty : base = ""
  · subst isEmpty
    exact ⟨[], by simp [pieces_render nonempty proper], rfl⟩
  · by_cases slash : endsWithSlash base = true
    · obtain ⟨front, rfl⟩ := (ends_with_slash_iff base).mp slash
      rw [if_pos (Or.inr slash)]
      refine ⟨pieces front, ?_, ?_⟩
      · rw [pieces_slash, pieces_render nonempty proper]
      · unfold steps
        rw [pieces_of_slash, List.filterMap_append]
        simp [step?]
    · rw [if_neg (by simp [isEmpty, slash])]
      exact ⟨pieces base, by rw [pieces_slash, pieces_render nonempty proper], rfl⟩

/-- Leaving out the last name leaves the pieces before it, up to the idle ones at their end. -/
theorem parent_of_last {path name : String} {above : List String} (isName : IsName name)
    (ends : pieces path = above ++ [name]) :
    parent? path =
      match (above.reverse.dropWhile isIdle).reverse with
      | [] => some (if isAbsolute path then "/" else "")
      | pieces => some (render pieces) := by
  have busy : isIdle name = false := by simp [isIdle, isName.1, isName.2.1]
  unfold parent?
  rw [ends, List.reverse_append, List.reverse_singleton, List.singleton_append,
    List.dropWhile_cons_of_neg (by simp [busy])]
  rfl

theorem steps_of_idle {pieces : List String} (idle : ∀ piece ∈ pieces, isIdle piece = true) :
    ∃ count, pieces.filterMap step? = List.replicate count .here := by
  induction pieces with
  | nil => exact ⟨0, rfl⟩
  | cons piece rest ih =>
      obtain ⟨count, same⟩ := ih fun other member => idle other (List.mem_cons_of_mem _ member)
      have stays := idle piece List.mem_cons_self
      rw [isIdle, Bool.or_eq_true, decide_eq_true_iff, decide_eq_true_iff] at stays
      rcases stays with rfl | rfl
      · exact ⟨count, by simpa [step?] using same⟩
      · exact ⟨count + 1, by simp [step?, same, List.replicate_succ]⟩

theorem steps_of_parent {path name : String} {above : List String} (isName : IsName name)
    (ends : pieces path = above ++ [name]) :
    ∃ parent idle, parent? path = some parent ∧
      above.filterMap step? = steps parent ++ List.replicate idle .here := by
  have plain : ∀ piece ∈ above, '/' ∉ piece.toList := fun piece member =>
    pieces_plain path piece (ends ▸ List.mem_append_left _ member)
  obtain ⟨kept, dropped, whole, isKept, idle⟩ : ∃ kept dropped, above = kept ++ dropped ∧
      (above.reverse.dropWhile isIdle).reverse = kept ∧
        ∀ piece ∈ dropped, isIdle piece = true := by
    refine ⟨_, (above.reverse.takeWhile isIdle).reverse, ?_, rfl, ?_⟩
    · rw [← List.reverse_append, List.takeWhile_append_dropWhile, List.reverse_reverse]
    · intro piece member
      exact List.mem_takeWhile_imp (List.mem_reverse.mp member)
  obtain ⟨count, stays⟩ := steps_of_idle idle
  have parent := parent_of_last isName ends
  rw [isKept] at parent
  rw [whole, List.filterMap_append, stays]
  cases kept with
  | nil =>
      refine ⟨_, count, parent, ?_⟩
      split <;> rfl
  | cons first others =>
      refine ⟨_, count, parent, ?_⟩
      have split : pieces (render (first :: others)) = first :: others :=
        pieces_render_plain (List.cons_ne_nil _ _) fun piece member =>
          plain piece (whole ▸ List.mem_append_left _ member)
      rw [steps, split]

theorem pieces_of_parent {path name last : String} {above : List String} (isName : IsName name)
    (isLast : IsName last) (ends : pieces path = above ++ [last] ++ [name]) :
    ∃ parent, parent? path = some parent ∧ pieces parent = above ++ [last] := by
  have busy : isIdle last = false := by simp [isIdle, isLast.1, isLast.2.1]
  have parent := parent_of_last isName ends
  rw [List.reverse_append, List.reverse_singleton, List.singleton_append,
    List.dropWhile_cons_of_neg (by simp [busy]), List.reverse_cons, List.reverse_reverse] at parent
  refine ⟨render (above ++ [last]), ?_, ?_⟩
  · rw [parent]
    cases above <;> rfl
  · apply pieces_render_plain (by simp)
    intro piece member
    exact pieces_plain path piece (ends ▸ List.mem_append_left _ member)

structure GoesInto (way : List Step) (names : List String) (path : String) : Prop where
  proper : AreNames names
  split : ∃ above, pieces path = above ++ names ∧ above.filterMap step? = way

section Into

variable {way : List Step} {names : List String} {name path : String}

theorem goes_into_itself (path : String) : GoesInto (steps path) [] path :=
  ⟨are_names_nil, pieces path, by simp, rfl⟩

theorem goes_into_join (base : String) (proper : AreNames names) :
    GoesInto (steps base) names (join base (render names)) := by
  by_cases isEmpty : names = []
  · subst isEmpty
    refine ⟨proper, pieces (join base ""), by simp [render], ?_⟩
    have relative : isAbsolute "" = false := rfl
    unfold join
    rw [relative, if_neg (by simp), String.append_empty, String.append_empty]
    split
    · rfl
    · rw [pieces_of_slash, List.filterMap_append]
      exact List.append_nil _
  · exact ⟨proper, pieces_join base isEmpty proper⟩

theorem steps_into (into : GoesInto way names path) : steps path = way ++ names.map .down := by
  obtain ⟨above, ends, same⟩ := into.split
  rw [steps_of_pieces into.proper ends, same]

theorem last_into (into : GoesInto way (names ++ [name]) path) :
    IsName name ∧ ∃ above, pieces path = above ++ [name] := by
  obtain ⟨above, ends, _⟩ := into.split
  rw [← List.append_assoc] at ends
  exact ⟨into.proper name (by simp), _, ends⟩

theorem route_into (into : GoesInto way (names ++ [name]) path) : route path = steps path := by
  obtain ⟨isName, above, ends⟩ := last_into into
  exact route_eq_steps isName ends

/-- Above a path that goes into a directory is one that goes less far into it, or one that
leads there with the same steps up to those that stay. -/
theorem parent_into (into : GoesInto way (names ++ [name]) path) :
    ∃ parent, parent? path = some parent ∧ (names ≠ [] → GoesInto way names parent) ∧
      (names = [] → ∃ idle, way = steps parent ++ List.replicate idle .here) := by
  obtain ⟨isName, _⟩ := last_into into
  obtain ⟨above, ends, rfl⟩ := into.split
  rcases names.eq_nil_or_concat' with rfl | ⟨front, last, rfl⟩
  · obtain ⟨parent, idle, isParent, same⟩ := steps_of_parent isName ends
    exact ⟨parent, isParent, fun more => absurd rfl more, fun _ => ⟨idle, same⟩⟩
  · have proper := (are_names_append.mp into.proper).1
    rw [← List.append_assoc, ← List.append_assoc] at ends
    obtain ⟨parent, isParent, split⟩ := pieces_of_parent isName (proper last (by simp)) ends
    rw [List.append_assoc] at split
    exact ⟨parent, isParent, fun _ => ⟨proper, above, split, rfl⟩,
      fun none => by simp at none⟩

end Into

end DiskPath

end StorageScenario
