import Mathlib
import StorageScenario.Mapping
import StorageScenario.Proofs.PathNormalForm

/-!
What a flattened mapping holds at a path. The definition at a path is found by
walking the mapping along the names on the path, without building any table, and
flattening gives the same answer at every clean path. Two children of a folder
never meet, because the first name below the folder tells them apart.
-/

namespace StorageScenario.Mapping

open ObjectPath

mutual

/-- The definition met at the end of a walk along the names. -/
def find? : Mapping → List String → Option ObjectDefinition
  | .flat objects, path => objects.get? (render path)
  | .folder own _, [] => some own.markedFolder
  | .folder _ children, name :: down => findBelow? children name down
  | .single object, [] => some object
  | .single _, _ :: _ => none
  | .under parent mapping, path =>
      ((names parent).isPrefixOf? path).bind fun down => mapping.find? down
  | .overlay base upper, path => (upper.find? path).or (base.find? path)

def findBelow? : List (String × Mapping) → String → List String → Option ObjectDefinition
  | [], _, _ => none
  | (name, child) :: rest, wanted, down =>
      if wanted = name then child.find? down else findBelow? rest wanted down

end

mutual

/-- Paths are written in clean form, and what is in a folder stands under
different names that each lead one folder down. -/
def Tidy : Mapping → Prop
  | .flat objects => ∀ path ∈ objects.keys, clean path = path
  | .folder _ children => (children.map Prod.fst).Nodup ∧ ChildrenTidy children
  | .single _ => True
  | .under _ mapping => mapping.Tidy
  | .overlay base upper => base.Tidy ∧ upper.Tidy

def ChildrenTidy : List (String × Mapping) → Prop
  | [] => True
  | (name, child) :: rest => IsName name ∧ child.Tidy ∧ ChildrenTidy rest

end

theorem folder_of_tidy {own : ObjectDefinition} {children : Table Mapping}
    (tidy : ChildrenTidy children.entries) : (folderOf own children).Tidy :=
  ⟨children.keys_nodup, tidy⟩

theorem find_below_other {children : List (String × Mapping)} {name : String}
    (other : name ∉ children.map Prod.fst) (down : List String) :
    findBelow? children name down = none := by
  induction children with
  | nil => rfl
  | cons head rest ih =>
      simp only [List.map_cons, List.mem_cons, not_or] at other
      simp [findBelow?, other.1, ih other.2]

/-- A table of clean paths that answers as the walk does. -/
structure Walks (mapping : Mapping) : Prop where
  clean : ∀ path ∈ mapping.flatten.keys, clean path = path
  found : ∀ path, ObjectPath.clean path = path →
    mapping.flatten.get? path = mapping.find? (names path)

section Moving

theorem eq_join_iff {parent path child : String} (pathClean : clean path = path)
    (childClean : clean child = child) :
    path = join parent child ↔ names path = names parent ++ names child := by
  rw [← names_join_clean parent childClean]
  constructor
  · intro same
    rw [same]
  · intro sameNames
    exact eq_of_names pathClean (clean_join parent child) sameNames

theorem strip_parent {parent path : String} {down : List String}
    (stripped : (names parent).isPrefixOf? (names path) = some down) :
    names parent ++ down = names path ∧ AreNames down := by
  have split := List.isPrefixOf?_eq_some_iff_append_eq.mp stripped
  have proper : AreNames (names parent ++ down) := split ▸ names_are_names path
  exact ⟨split, (are_names_append.mp proper).2⟩

theorem lookup_moved (parent : String) {entries : List (String × ObjectDefinition)}
    (cleanEntries : ∀ entry ∈ entries, clean entry.1 = entry.1) {path : String}
    (pathClean : clean path = path) :
    (entries.map fun entry => (join parent entry.1, entry.2)).lookup path =
      ((names parent).isPrefixOf? (names path)).bind fun down => entries.lookup (render down) := by
  induction entries with
  | nil => simp
  | cons head rest ih =>
      have headClean := cleanEntries head (by simp)
      have later := ih fun entry member => cleanEntries entry (by simp [member])
      rw [List.map_cons, Table.lookup_entry, later]
      cases stripped : (names parent).isPrefixOf? (names path) with
      | none =>
          have elsewhere : path ≠ join parent head.1 := by
            intro same
            have split := (eq_join_iff pathClean headClean).mp same
            rw [split] at stripped
            have isPrefix : (names parent).isPrefixOf? (names parent ++ names head.1) =
                some (names head.1) := List.isPrefixOf?_eq_some_iff_append_eq.mpr rfl
            simp [isPrefix] at stripped
          simp [elsewhere]
      | some down =>
          obtain ⟨split, downNames⟩ := strip_parent stripped
          have sameEntry : path = join parent head.1 ↔ render down = head.1 := by
            rw [eq_join_iff pathClean headClean, ← split, List.append_right_inj]
            constructor
            · intro same
              rw [same, render_names headClean]
            · intro same
              rw [← same, names_render downNames]
          simp [Table.lookup_entry, sameEntry]

theorem lookup_moved_table (parent : String) {objects : Table ObjectDefinition}
    (cleanKeys : ∀ path ∈ objects.keys, clean path = path) {path : String}
    (pathClean : clean path = path) :
    (moved parent objects).reverse.lookup path =
      ((names parent).isPrefixOf? (names path)).bind fun down => objects.get? (render down) := by
  have cleanEntries : ∀ entry ∈ objects.entries.reverse, clean entry.1 = entry.1 :=
    fun entry member => cleanKeys entry.1 (List.mem_map_of_mem (List.mem_reverse.mp member))
  have look := lookup_moved parent cleanEntries pathClean
  simp only [Table.lookup_reverse_entries] at look
  rw [moved, ← List.map_reverse, look]

theorem found_below {mapping : Mapping} (walks : mapping.Walks) (parent : String) {path : String}
    (pathClean : clean path = path) :
    (moved parent mapping.flatten).reverse.lookup path =
      ((names parent).isPrefixOf? (names path)).bind fun down => mapping.find? down := by
  rw [lookup_moved_table parent walks.clean pathClean]
  cases stripped : (names parent).isPrefixOf? (names path) with
  | none => rfl
  | some down =>
      have downNames := (strip_parent stripped).2
      have below := walks.found (render down) (clean_render downNames)
      rw [names_render downNames] at below
      exact below

theorem moved_clean (parent : String) (objects : Table ObjectDefinition) :
    ∀ path ∈ (moved parent objects).map Prod.fst, clean path = path := by
  intro path member
  obtain ⟨pair, inMoved, same⟩ := List.mem_map.mp member
  obtain ⟨entry, _, joined⟩ := List.mem_map.mp inMoved
  rw [← same, ← joined]
  exact clean_join parent entry.1

theorem moved_keys_nodup (parent : String) {objects : Table ObjectDefinition}
    (cleanKeys : ∀ path ∈ objects.keys, clean path = path) :
    ((moved parent objects).map Prod.fst).Nodup := by
  have keys : (moved parent objects).map Prod.fst = objects.keys.map (join parent) := by
    simp [moved, Table.keys]
  rw [keys]
  apply List.Nodup.map_on ?_ objects.keys_nodup
  intro first firstKey second secondKey same
  exact join_injective parent (cleanKeys first firstKey) (cleanKeys second secondKey) same

end Moving

section Children

variable {children : List (String × Mapping)}

theorem children_keys_clean (children : List (String × Mapping)) :
    ∀ path ∈ (flattenChildren children).map Prod.fst, clean path = path := by
  induction children with
  | nil => simp [flattenChildren]
  | cons head rest ih =>
      intro path member
      rw [flattenChildren, List.map_append, List.mem_append] at member
      rcases member with here | later
      · exact moved_clean head.1 head.2.flatten path here
      · exact ih path later

/-- Every path under a child begins with the name of the child. -/
theorem moved_below_name {name path : String} (isName : IsName name)
    {objects : Table ObjectDefinition} (cleanKeys : ∀ path ∈ objects.keys, clean path = path)
    (member : path ∈ (moved name objects).map Prod.fst) :
    ∃ down, names path = name :: down := by
  obtain ⟨pair, inMoved, same⟩ := List.mem_map.mp member
  obtain ⟨entry, inTable, joined⟩ := List.mem_map.mp inMoved
  have entryClean := cleanKeys entry.1 (List.mem_map_of_mem inTable)
  refine ⟨names entry.1, ?_⟩
  rw [← same, ← joined, names_join_clean name entryClean, names_name isName]
  rfl

theorem children_keys_below (tidy : ChildrenTidy children)
    (walk : ∀ child ∈ children, child.2.Walks) :
    ∀ path ∈ (flattenChildren children).map Prod.fst,
      ∃ name ∈ children.map Prod.fst, ∃ down, names path = name :: down := by
  induction children with
  | nil => simp [flattenChildren]
  | cons head rest ih =>
      obtain ⟨headName, _, restTidy⟩ := tidy
      intro path member
      rw [flattenChildren, List.map_append, List.mem_append] at member
      rcases member with here | later
      · have headWalks := walk head (by simp)
        exact ⟨head.1, by simp, moved_below_name headName headWalks.clean here⟩
      · have restWalk : ∀ child ∈ rest, child.2.Walks :=
          fun child inRest => walk child (by simp [inRest])
        obtain ⟨name, inRest, below⟩ := ih restTidy restWalk path later
        exact ⟨name, by simp [inRest], below⟩

theorem children_keys_nodup (distinct : (children.map Prod.fst).Nodup)
    (tidy : ChildrenTidy children) (walk : ∀ child ∈ children, child.2.Walks) :
    ((flattenChildren children).map Prod.fst).Nodup := by
  induction children with
  | nil => simp [flattenChildren]
  | cons head rest ih =>
      obtain ⟨headName, _, restTidy⟩ := tidy
      obtain ⟨headApart, restDistinct⟩ := List.nodup_cons.mp distinct
      have headWalks := walk head (by simp)
      have restWalk : ∀ child ∈ rest, child.2.Walks :=
        fun child inRest => walk child (by simp [inRest])
      have apart : ((moved head.1 head.2.flatten).map Prod.fst).Disjoint
          ((flattenChildren rest).map Prod.fst) := by
        intro path here later
        obtain ⟨down, underHead⟩ := moved_below_name headName headWalks.clean here
        obtain ⟨name, inRest, other, underName⟩ :=
          children_keys_below restTidy restWalk path later
        rw [underHead] at underName
        have sameName : head.1 = name := (List.cons.inj underName).1
        exact headApart (sameName ▸ inRest)
      rw [flattenChildren, List.map_append]
      exact List.nodup_append'.mpr ⟨moved_keys_nodup head.1 headWalks.clean,
        ih restDistinct restTidy restWalk, apart⟩

theorem lookup_children (distinct : (children.map Prod.fst).Nodup)
    (tidy : ChildrenTidy children) (walk : ∀ child ∈ children, child.2.Walks) {path : String}
    (pathClean : clean path = path) :
    (flattenChildren children).reverse.lookup path =
      match names path with
      | [] => none
      | name :: down => findBelow? children name down := by
  induction children with
  | nil => cases names path <;> rfl
  | cons head rest ih =>
      obtain ⟨headName, _, restTidy⟩ := tidy
      obtain ⟨headApart, restDistinct⟩ := List.nodup_cons.mp distinct
      have later := ih restDistinct restTidy fun child inRest => walk child (by simp [inRest])
      have here := found_below (walk head (by simp)) head.1 pathClean
      rw [names_name headName] at here
      rw [flattenChildren, List.reverse_append, List.lookup_append, later, here]
      cases path : names path with
      | nil => simp [List.isPrefixOf?]
      | cons name down =>
          simp only [findBelow?, List.isPrefixOf?]
          -- Later children win in the table, but none of them has the name of this one.
          by_cases atHead : name = head.1
          · rw [if_pos atHead, atHead, find_below_other headApart]
            simp
          · simp [atHead, Ne.symm atHead]

theorem length_flatten_children (children : List (String × Mapping)) :
    (flattenChildren children).length =
      (children.map fun child => child.2.flatten.size).sum := by
  induction children with
  | nil => rfl
  | cons head rest ih =>
      rw [flattenChildren, List.length_append, ih]
      simp [moved, Table.size]

/-- Nothing in a folder hides anything else in it. -/
theorem folder_size (own : ObjectDefinition) (distinct : (children.map Prod.fst).Nodup)
    (tidy : ChildrenTidy children) (walk : ∀ child ∈ children, child.2.Walks) :
    (flatten (.folder own children)).size =
      1 + (children.map fun child => child.2.flatten.size).sum := by
  have noneOwn : ∀ pair ∈ flattenChildren children,
      pair.1 ∉ (Table.singleton "" own.markedFolder).keys := by
    intro pair member atOwn
    have empty : pair.1 = "" := by simpa [Table.singleton, Table.keys] using atOwn
    obtain ⟨name, _, down, below⟩ :=
      children_keys_below tidy walk pair.1 (List.mem_map_of_mem member)
    rw [empty, names_empty] at below
    cases below
  have grown := Table.size_extend (Table.singleton "" own.markedFolder)
    (children_keys_nodup distinct tidy walk) noneOwn
  rw [length_flatten_children] at grown
  exact grown

end Children

section Shapes

theorem get_root (object : ObjectDefinition) {path : String} (pathClean : clean path = path) :
    (Table.singleton "" object).get? path =
      match names path with
      | [] => some object
      | _ :: _ => none := by
  rw [Table.get?_singleton]
  simp only [← names_eq_nil_iff pathClean]
  cases names path with
  | nil => simp
  | cons name down => simp

theorem root_clean (object : ObjectDefinition) :
    ∀ path ∈ (Table.singleton "" object).keys, clean path = path := by
  intro path member
  have empty : path = "" := by simpa [Table.singleton, Table.keys] using member
  rw [empty]
  rfl

theorem folder_walks (own : ObjectDefinition) {children : List (String × Mapping)}
    (distinct : (children.map Prod.fst).Nodup) (tidy : ChildrenTidy children)
    (walk : ∀ child ∈ children, child.2.Walks) : Walks (.folder own children) where
  clean path member := by
    rw [flatten, Table.mem_keys_extend] at member
    rcases member with atOwn | below
    · exact root_clean own.markedFolder path atOwn
    · exact children_keys_clean children path below
  found path pathClean := by
    rw [flatten, Table.get?_extend, lookup_children distinct tidy walk pathClean,
      get_root own.markedFolder pathClean]
    cases names path with
    | nil => simp [find?]
    | cons name down => simp [find?]

theorem single_walks (object : ObjectDefinition) : Walks (.single object) where
  clean := root_clean object
  found path pathClean := by
    rw [flatten, get_root object pathClean]
    cases names path with
    | nil => simp [find?]
    | cons name down => simp [find?]

theorem under_walks (parent : String) {mapping : Mapping} (walks : mapping.Walks) :
    Walks (.under parent mapping) where
  clean path member := by
    rw [flatten, Table.mem_keys_of_list] at member
    exact moved_clean parent mapping.flatten path member
  found path pathClean := by
    rw [flatten, Table.get?_of_list, found_below walks parent pathClean, find?]

theorem overlay_walks {base upper : Mapping} (baseWalks : base.Walks)
    (upperWalks : upper.Walks) : Walks (.overlay base upper) where
  clean path member := by
    rw [flatten, Table.mem_keys_extend] at member
    rcases member with inBase | inUpper
    · exact baseWalks.clean path inBase
    · exact upperWalks.clean path inUpper
  found path pathClean := by
    rw [flatten, Table.get?_extend_entries, find?, upperWalks.found path pathClean,
      baseWalks.found path pathClean]

end Shapes

mutual

theorem tidy_walks : (mapping : Mapping) → mapping.Tidy → mapping.Walks
  | .flat objects, tidy =>
      { clean := tidy
        found := fun path pathClean => by rw [flatten, find?, render_names pathClean] }
  | .folder own children, tidy =>
      folder_walks own tidy.1 tidy.2 (tidy_children_walk children tidy.2)
  | .single object, _ => single_walks object
  | .under parent mapping, tidy => under_walks parent (tidy_walks mapping tidy)
  | .overlay base upper, tidy => overlay_walks (tidy_walks base tidy.1) (tidy_walks upper tidy.2)

theorem tidy_children_walk : (children : List (String × Mapping)) → ChildrenTidy children →
    ∀ child ∈ children, child.2.Walks
  | [], _ => by simp
  | (_, child) :: rest, tidy => by
      intro other member
      rcases List.mem_cons.mp member with same | later
      · exact same ▸ tidy_walks child tidy.2.1
      · exact tidy_children_walk rest tidy.2.2 other later

end

/-- The table of a tidy mapping has clean paths, holds at each what a walk along its
names finds, and a folder counts once besides everything in it. -/
theorem flatten_is_walk (mapping : Mapping) (tidy : mapping.Tidy) :
    (∀ path ∈ mapping.flatten.keys, clean path = path) ∧
      (∀ path, clean path = path → mapping.flatten.get? path = mapping.find? (names path)) ∧
      ∀ own children, mapping = .folder own children →
        mapping.flatten.size = 1 + (children.map fun child => child.2.flatten.size).sum := by
  have walks := tidy_walks mapping tidy
  refine ⟨walks.clean, walks.found, ?_⟩
  intro own children isFolder
  subst isFolder
  exact folder_size own tidy.1 tidy.2 (tidy_children_walk children tidy.2)

def nestedFolder : Mapping :=
  folderOf {} (Table.ofList
    [("logs", .overlay (.flat (Table.ofList [("", {}), ("2026/may", {})]))
        (.single { shouldExist := some false })),
      ("notes", .under "x/../old/." (.single .folder))])

theorem flatten_is_walk_nested :
    nestedFolder.Tidy ∧ nestedFolder.flatten.get? "logs" = some { shouldExist := some false } ∧
      nestedFolder.flatten.get? "notes/old" = some .folder ∧
      nestedFolder.flatten.get? "notes/x" = none ∧ nestedFolder.flatten.size = 4 := by
  have logsClean : ∀ path ∈ ["", "2026/may"], clean path = path := by decide
  have tidy : nestedFolder.Tidy :=
    folder_of_tidy ⟨by decide, ⟨logsClean, trivial⟩, by decide, trivial, trivial⟩
  obtain ⟨_, found, size⟩ := flatten_is_walk nestedFolder tidy
  have atLogs := found "logs" (by decide)
  have atNotes := found "notes/old" (by decide)
  have nowhere := found "notes/x" (by decide)
  exact ⟨tidy, atLogs, atNotes, nowhere, size _ _ rfl⟩

end StorageScenario.Mapping
