import Mathlib.Data.List.Basic
import StorageScenario.ObjectPath
import StorageScenario.Text

/-!
Normal form of object paths. The steps of any path resolve to proper names, and
proper names are read back from the path that they render to. So clean paths and
lists of proper names stand for each other, and a path joined behind a parent has
the names of the parent in front.
-/

namespace StorageScenario.ObjectPath

def IsName (piece : String) : Prop :=
  piece ≠ "" ∧ piece ≠ "." ∧ piece ≠ ".." ∧ '/' ∉ piece.toList

instance (piece : String) : Decidable (IsName piece) :=
  inferInstanceAs
    (Decidable (piece ≠ "" ∧ piece ≠ "." ∧ piece ≠ ".." ∧ '/' ∉ piece.toList))

def AreNames (pieces : List String) : Prop := ∀ piece ∈ pieces, IsName piece

instance (pieces : List String) : Decidable (AreNames pieces) :=
  inferInstanceAs (Decidable (∀ piece ∈ pieces, IsName piece))

theorem are_names_nil : AreNames [] := List.forall_mem_nil _

theorem are_names_append {first second : List String} :
    AreNames (first ++ second) ↔ AreNames first ∧ AreNames second :=
  List.forall_mem_append

theorem are_names_cons {name : String} {rest : List String} :
    AreNames (name :: rest) ↔ IsName name ∧ AreNames rest :=
  List.forall_mem_cons

theorem are_names_single {name : String} : AreNames [name] ↔ IsName name :=
  List.forall_mem_singleton

section Splitting

theorem split_slash_eq_split_on (letters : List Char) :
    splitSlash letters = letters.splitOn '/' := by
  induction letters with
  | nil => rfl
  | cons letter rest ih =>
      rw [List.splitOn_cons_eq_if_modifyHead, splitSlash, ih]
      by_cases slash : letter = '/'
      · simp [slash]
      · cases later : rest.splitOn '/' with
        | nil => exact absurd later (List.splitOn_ne_nil '/' rest)
        | cons first others => simp [slash]

theorem split_slash_plain (letters : List Char) :
    ∀ piece ∈ splitSlash letters, '/' ∉ piece := by
  induction letters with
  | nil => simp [splitSlash]
  | cons letter rest ih =>
      simp only [splitSlash]
      by_cases slash : letter = '/'
      · simpa [slash] using ih
      · rw [if_neg slash]
        cases later : splitSlash rest with
        | nil => simpa using Ne.symm slash
        | cons first others =>
            rw [later] at ih
            have firstPlain : '/' ∉ first := ih first (by simp)
            have othersPlain : ∀ piece ∈ others, '/' ∉ piece :=
              fun piece member => ih piece (by simp [member])
            simpa [firstPlain, Ne.symm slash] using othersPlain

theorem pieces_plain (path : String) : ∀ piece ∈ pieces path, '/' ∉ piece.toList := by
  intro piece member
  obtain ⟨letters, isPiece, same⟩ := List.mem_map.mp member
  rw [← same, String.toList_ofList]
  exact split_slash_plain path.toList letters isPiece

theorem pieces_render_plain {parts : List String} (nonempty : parts ≠ [])
    (plain : ∀ part ∈ parts, '/' ∉ part.toList) : pieces (render parts) = parts := by
  have plainLetters : ∀ letters ∈ parts.map String.toList, '/' ∉ letters := by
    intro letters member
    obtain ⟨part, isPart, same⟩ := List.mem_map.mp member
    exact same ▸ plain part isPart
  have slash : "/".toList = ['/'] := by rfl
  unfold pieces render
  rw [split_slash_eq_split_on, String.toList_intercalate, slash,
    List.splitOn_intercalate '/' plainLetters (by simpa using nonempty)]
  simp

theorem render_single (name : String) : render [name] = name := by
  simp [render]

theorem pieces_of_plain {name : String} (plain : '/' ∉ name.toList) : pieces name = [name] := by
  have split := pieces_render_plain (List.cons_ne_nil name []) (by simpa using plain)
  rwa [render_single] at split

theorem pieces_render {names : List String} (nonempty : names ≠ []) (proper : AreNames names) :
    pieces (render names) = names :=
  pieces_render_plain nonempty fun name isName => (proper name isName).2.2.2

end Splitting

section Resolving

theorem follow_name {name : String} (proper : IsName name) (trail : List String) :
    follow trail name = name :: trail := by
  obtain ⟨nonempty, notHere, notUp, _⟩ := proper
  simp [follow, nonempty, notHere, notUp]

theorem follow_are_names {trail : List String} {piece : String} (proper : AreNames trail)
    (plain : '/' ∉ piece.toList) : AreNames (follow trail piece) := by
  unfold follow
  split
  · exact proper
  · split
    · exact fun name member => proper name (List.mem_of_mem_tail member)
    · rename_i notIdle notUp
      rw [not_or] at notIdle
      exact are_names_cons.mpr ⟨⟨notIdle.1, notIdle.2, notUp, plain⟩, proper⟩

theorem steps_are_names {steps trail : List String} (proper : AreNames trail)
    (plain : ∀ piece ∈ steps, '/' ∉ piece.toList) : AreNames (steps.foldl follow trail) := by
  induction steps generalizing trail with
  | nil => exact proper
  | cons piece rest ih =>
      have next := follow_are_names proper (plain piece (by simp))
      exact ih next fun other member => plain other (by simp [member])

theorem resolve_are_names {steps : List String}
    (plain : ∀ piece ∈ steps, '/' ∉ piece.toList) : AreNames (resolve steps) := by
  intro name member
  have reached : AreNames (steps.foldl follow []) := steps_are_names are_names_nil plain
  exact reached name (List.mem_reverse.mp member)

theorem names_are_names (path : String) : AreNames (names path) :=
  resolve_are_names (pieces_plain path)

theorem follow_names {down : List String} (proper : AreNames down) (trail : List String) :
    down.foldl follow trail = down.reverse ++ trail := by
  induction down generalizing trail with
  | nil => rfl
  | cons name rest ih =>
      obtain ⟨isName, restNames⟩ := are_names_cons.mp proper
      rw [List.foldl_cons, follow_name isName, ih restNames]
      simp

/-- Steps down are kept behind whatever the steps before them resolve to. -/
theorem resolve_append_names (steps : List String) {down : List String}
    (proper : AreNames down) : resolve (steps ++ down) = resolve steps ++ down := by
  unfold resolve
  rw [List.foldl_append, follow_names proper, List.reverse_append, List.reverse_reverse]

theorem resolve_names {down : List String} (proper : AreNames down) : resolve down = down := by
  simpa [resolve] using resolve_append_names [] proper

theorem names_render {down : List String} (proper : AreNames down) :
    names (render down) = down := by
  unfold names
  by_cases isEmpty : down = []
  · rw [isEmpty]
    rfl
  · rw [pieces_render isEmpty proper, resolve_names proper]

theorem names_name {name : String} (isName : IsName name) : names name = [name] := by
  have read := names_render (are_names_single.mpr isName)
  rwa [render_single] at read

end Resolving

section Joining

theorem clean_eq_render (path : String) : clean path = render (names path) := by
  have idle : follow [] "" = [] := by rfl
  have empty : pieces "" = [""] := by rfl
  unfold clean join names resolve
  rw [empty, List.singleton_append, List.foldl_cons, idle]

theorem render_names {path : String} (isClean : clean path = path) :
    render (names path) = path := by
  rw [← clean_eq_render, isClean]

@[simp]
theorem names_empty : names "" = [] := rfl

theorem names_eq_nil_iff {path : String} (isClean : clean path = path) :
    names path = [] ↔ path = "" := by
  constructor
  · intro noNames
    rw [← render_names isClean, noNames]
    rfl
  · intro empty
    rw [empty, names_empty]

theorem clean_render {down : List String} (proper : AreNames down) :
    clean (render down) = render down := by
  rw [clean_eq_render, names_render proper]

theorem joined_are_names (parent child : String) :
    AreNames (resolve (pieces parent ++ pieces child)) := by
  apply resolve_are_names
  intro piece member
  rcases List.mem_append.mp member with inParent | inChild
  · exact pieces_plain parent piece inParent
  · exact pieces_plain child piece inChild

@[simp]
theorem clean_join (parent child : String) :
    clean (join parent child) = join parent child :=
  clean_render (joined_are_names parent child)

theorem names_join (parent child : String) :
    names (join parent child) = resolve (pieces parent ++ pieces child) :=
  names_render (joined_are_names parent child)

theorem clean_eq_empty_iff (path : String) : clean path = "" ↔ names path = [] := by
  have sameNames : names (clean path) = names path := by
    rw [clean_eq_render, names_render (names_are_names path)]
  have isClean : clean (clean path) = clean path := clean_join "" path
  rw [← names_eq_nil_iff isClean, sameNames]

theorem eq_of_names {first second : String} (firstClean : clean first = first)
    (secondClean : clean second = second) (same : names first = names second) :
    first = second := by
  rw [← render_names firstClean, same, render_names secondClean]

theorem join_render (parent : String) {down : List String} (proper : AreNames down) :
    join parent (render down) = render (names parent ++ down) := by
  unfold join
  by_cases isEmpty : down = []
  · have empty : pieces "" = [""] := by rfl
    have idle : ∀ trail, follow trail "" = trail := by simp [follow]
    have joined : resolve (pieces parent ++ [""]) = names parent := by
      simp [resolve, names, idle]
    rw [isEmpty, List.append_nil]
    change render (resolve (pieces parent ++ pieces "")) = _
    rw [empty, joined]
  · rw [pieces_render isEmpty proper, resolve_append_names _ proper]
    rfl

theorem join_clean (parent : String) {path : String} (isClean : clean path = path) :
    join parent path = render (names parent ++ names path) := by
  have joined := join_render parent (names_are_names path)
  rw [render_names isClean] at joined
  exact joined

theorem names_join_clean (parent : String) {path : String} (isClean : clean path = path) :
    names (join parent path) = names parent ++ names path := by
  rw [join_clean parent isClean]
  exact names_render (are_names_append.mpr ⟨names_are_names parent, names_are_names path⟩)

/-- Behind one parent clean paths stay apart. -/
theorem join_injective (parent : String) {first second : String}
    (firstClean : clean first = first) (secondClean : clean second = second)
    (same : join parent first = join parent second) : first = second := by
  apply eq_of_names firstClean secondClean
  have split := congrArg names same
  rwa [names_join_clean parent firstClean, names_join_clean parent secondClean,
    List.append_right_inj] at split

end Joining

section Below

theorem starts_with_iff (text start : String) :
    Text.startsWith text start ↔ start.toList <+: text.toList := by
  unfold Text.startsWith Text.remainder?
  rw [Option.isSome_map, List.isSome_isPrefixOf?_eq_isPrefixOf, List.isPrefixOf_iff_prefix]

theorem not_below_itself {path other : String} (begins : Text.startsWith other (below path)) :
    other ≠ path := by
  rintro rfl
  rw [starts_with_iff] at begins
  have longer := begins.length_le
  have slash : "/".toList.length = 1 := rfl
  rw [below, String.toList_append, List.length_append, slash] at longer
  omega

theorem below_trans {path middle top : String}
    (upper : Text.startsWith middle (below top)) (lower : Text.startsWith path (below middle)) :
    Text.startsWith path (below top) := by
  rw [starts_with_iff] at upper lower ⊢
  have middleFirst : middle.toList <+: (below middle).toList := by
    unfold below
    rw [String.toList_append]
    exact List.prefix_append _ _
  exact upper.trans (middleFirst.trans lower)

end Below

end StorageScenario.ObjectPath
