import StorageScenario.Proofs.UnderFolder

/-!
Overlays in a folder. Overlaying before or after the mappings are placed in a folder gives the
same paths. After, the upper mapping wins at every path. Before, the two are one table in which
it wins only where a path is spelled in one way, and of the spellings that come to one path
behind the folder the last one in the order of the table stays. So the two differ where that
is a spelling of the lower mapping.
-/

namespace StorageScenario.Mapping

open ObjectPath

variable {folder path : String} {objects base upper : Table ObjectDefinition}

/-- The last entry of a table that comes to a path behind a folder. -/
def lastAt? (folder : String) (objects : Table ObjectDefinition) (path : String) :
    Option (String × ObjectDefinition) :=
  objects.entries.reverse.find? fun entry => join folder entry.1 = path

section LastEntry

theorem last_at_none_iff :
    lastAt? folder objects path = none ↔ ∀ key ∈ objects.keys, join folder key ≠ path := by
  unfold lastAt? Table.keys
  simp [List.find?_eq_none]

theorem last_at_some {entry : String × ObjectDefinition}
    (last : lastAt? folder objects path = some entry) :
    objects.get? entry.1 = some entry.2 ∧ join folder entry.1 = path ∧
      ∀ key ∈ objects.keys, join folder key = path → key ≤ entry.1 := by
  unfold lastAt? at last
  obtain ⟨comes, before, behind, split, later⟩ := List.find?_eq_some_iff_append.mp last
  have whole : objects.entries = behind.reverse ++ entry :: before.reverse := by
    have turned := congrArg List.reverse split
    simpa using turned
  have ordered := objects.ordered
  rw [whole] at ordered
  refine ⟨?_, by simpa using comes, ?_⟩
  · rw [Table.get?_eq_some_iff, whole]
    simp
  · intro key isKey atPath
    obtain ⟨other, member, rfl⟩ := List.mem_map.mp isKey
    rw [whole] at member
    rcases List.mem_append.mp member with earlier | here
    · exact le_of_lt ((List.pairwise_append.mp ordered).2.2 other earlier entry
        List.mem_cons_self)
    · rcases List.mem_cons.mp here with same | after
      · rw [same]
      · have notThere := later other (List.mem_reverse.mp after)
        simp [atPath] at notThere

theorem last_at_of_greatest {key : String} {object : ObjectDefinition}
    (found : objects.get? key = some object) (comes : join folder key = path)
    (greatest : ∀ other ∈ objects.keys, join folder other = path → other ≤ key) :
    lastAt? folder objects path = some (key, object) := by
  have isKey := Table.mem_keys_of_get? found
  cases last : lastAt? folder objects path with
  | none => exact absurd comes (last_at_none_iff.mp last key isKey)
  | some entry =>
      obtain ⟨isEntry, entryComes, above⟩ := last_at_some last
      have entryKey := Table.mem_keys_of_get? isEntry
      have same : entry.1 = key :=
        String.le_antisymm (greatest entry.1 entryKey entryComes) (above key isKey comes)
      rw [same, found] at isEntry
      cases isEntry
      rw [← same]

theorem get?_moved (folder : String) (objects : Table ObjectDefinition) (path : String) :
    (Table.ofList (moved folder objects)).get? path =
      (lastAt? folder objects path).map Prod.snd := by
  rw [Table.get?_of_list, moved, ← List.map_reverse, lastAt?]
  induction objects.entries.reverse with
  | nil => rfl
  | cons head rest ih =>
      rw [List.map_cons, Table.lookup_entry, ih, List.find?_cons]
      by_cases atHead : join folder head.1 = path
      · simp [atHead]
      · simp [atHead, Ne.symm atHead]

end LastEntry

section Overlaying

theorem mem_keys_overlaid (key : String) :
    key ∈ (base.extend upper.entries).keys ↔ key ∈ base.keys ∨ key ∈ upper.keys :=
  Table.mem_keys_extend base upper.entries key

theorem last_at_overlaid_above {above : String × ObjectDefinition}
    (last : lastAt? folder upper path = some above)
    (behind : ∀ key ∈ base.keys, join folder key = path → key ≤ above.1) :
    lastAt? folder (base.extend upper.entries) path = some above := by
  obtain ⟨found, comes, greatest⟩ := last_at_some last
  apply last_at_of_greatest ?_ comes
  · intro other member atPath
    rcases (mem_keys_overlaid other).mp member with inBase | inUpper
    · exact behind other inBase atPath
    · exact greatest other inUpper atPath
  · rw [Table.get?_extend_entries, found, Option.some_or]

theorem last_at_overlaid_below {below : String × ObjectDefinition}
    (last : lastAt? folder base path = some below)
    (before : ∀ key ∈ upper.keys, join folder key = path → key < below.1) :
    lastAt? folder (base.extend upper.entries) path = some below := by
  obtain ⟨found, comes, greatest⟩ := last_at_some last
  have notUpper : upper.get? below.1 = none := by
    by_contra some
    have isKey : below.1 ∈ upper.keys :=
      (Table.mem_keys_iff upper below.1).mpr (Option.isSome_iff_ne_none.mpr some)
    exact String.lt_irrefl _ (before below.1 isKey comes)
  apply last_at_of_greatest ?_ comes
  · intro other member atPath
    rcases (mem_keys_overlaid other).mp member with inBase | inUpper
    · exact greatest other inBase atPath
    · exact le_of_lt (before other inUpper atPath)
  · rw [Table.get?_extend_entries, notUpper, found, Option.none_or]

/-- At a path an overlaid table comes to what the upper one comes to there, unless the last
spelling of the path is one of the lower table. -/
theorem last_at_overlaid (folder : String) (base upper : Table ObjectDefinition) (path : String) :
    lastAt? folder (base.extend upper.entries) path =
      match lastAt? folder base path, lastAt? folder upper path with
      | some below, some above => if above.1 < below.1 then some below else some above
      | below, none => below
      | none, above => above := by
  cases inBase : lastAt? folder base path with
  | none =>
      have noBase := last_at_none_iff.mp inBase
      cases inUpper : lastAt? folder upper path with
      | none =>
          have noUpper := last_at_none_iff.mp inUpper
          apply last_at_none_iff.mpr
          intro key member
          rcases (mem_keys_overlaid key).mp member with isBase | isUpper
          · exact noBase key isBase
          · exact noUpper key isUpper
      | some above =>
          exact last_at_overlaid_above inUpper
            fun key member atPath => absurd atPath (noBase key member)
  | some below =>
      have greatestBelow := (last_at_some inBase).2.2
      cases inUpper : lastAt? folder upper path with
      | none =>
          have noUpper := last_at_none_iff.mp inUpper
          exact last_at_overlaid_below inBase
            fun key member atPath => absurd atPath (noUpper key member)
      | some above =>
          have greatestAbove := (last_at_some inUpper).2.2
          change _ = if above.1 < below.1 then some below else some above
          split
          next later =>
            exact last_at_overlaid_below inBase fun key member atPath =>
              lt_of_le_of_lt (greatestAbove key member atPath) later
          next notLater =>
            exact last_at_overlaid_above inUpper fun key member atPath =>
              String.le_trans (greatestBelow key member atPath) (String.not_lt.mp notLater)

/-- Of the entries that come to a path behind a folder, the last one of the upper table comes
after all of the lower table, or means the same as the last of those. -/
def UpperStaysAt (folder : String) (base upper : Table ObjectDefinition) (path : String) : Prop :=
  ∀ below above, lastAt? folder base path = some below →
    lastAt? folder upper path = some above →
    above.1 < below.1 → below.2 = above.2

theorem upper_stays_iff (folder : String) (base upper : Table ObjectDefinition) (path : String) :
    (Table.ofList (moved folder (base.extend upper.entries))).get? path =
        ((Table.ofList (moved folder upper)).get? path).or
          ((Table.ofList (moved folder base)).get? path) ↔
      UpperStaysAt folder base upper path := by
  unfold UpperStaysAt
  rw [get?_moved, get?_moved, get?_moved, last_at_overlaid]
  cases lastAt? folder base path with
  | none => cases lastAt? folder upper path <;> simp
  | some below =>
      cases lastAt? folder upper path with
      | none => simp
      | some above =>
          change (if above.1 < below.1 then some below else some above).map Prod.snd = _ ↔ _
          split
          next later =>
            constructor
            · intro same _ _ isBelow isAbove _
              cases isBelow
              cases isAbove
              exact Option.some.inj same
            · intro stays
              exact congrArg some (stays below above rfl rfl later)
          next notLater =>
            constructor
            · intro _ _ _ isBelow isAbove later
              cases isBelow
              cases isAbove
              exact absurd later notLater
            · intro _
              rfl

end Overlaying

/-- A mapping placed in a folder after it is overlaid and before. Both have the same paths,
and the second way always takes the upper mapping where the two meet. So both ways are the same
exactly if the last spelling of a path at which they meet is never one of the lower mapping,
or has the definition that the upper one has there too. That is so in every folder if the
mappings together spell each object once and no path in them climbs above its own start. -/
theorem overlay_nesting (folder : String) (base upper : Mapping) :
    let overlaidFirst := (Mapping.under folder (.overlay base upper)).flatten
    let movedFirst := (Mapping.overlay (.under folder base) (.under folder upper)).flatten
    (∀ path, path ∈ overlaidFirst.keys ↔ path ∈ movedFirst.keys) ∧
      (∀ path, movedFirst.get? path =
        ((Mapping.under folder upper).flatten.get? path).or
          ((Mapping.under folder base).flatten.get? path)) ∧
      (overlaidFirst = movedFirst ↔
        ∀ path, UpperStaysAt folder base.flatten upper.flatten path) ∧
      ((Mapping.overlay base upper).flatten.Canonical →
        (∀ path ∈ (Mapping.overlay base upper).asWritten, StaysInside (pieces path)) →
        overlaidFirst = movedFirst) := by
  intro overlaidFirst movedFirst
  have upperWins : ∀ path, movedFirst.get? path =
      ((Mapping.under folder upper).flatten.get? path).or
        ((Mapping.under folder base).flatten.get? path) :=
    fun path => Table.get?_extend_entries _ _ path
  have agree : overlaidFirst = movedFirst ↔
      ∀ path, UpperStaysAt folder base.flatten upper.flatten path := by
    simp only [← upper_stays_iff]
    constructor
    · intro same path
      exact (congrArg (·.get? path) same).trans (upperWins path)
    · intro stays
      apply Table.eq_of_get?
      intro path
      exact (stays path).trans (upperWins path).symm
  refine ⟨?_, upperWins, agree, ?_⟩
  · intro path
    have inFirst := mem_under_keys folder (.overlay base upper) path
    have inSecond : path ∈ movedFirst.keys ↔
        path ∈ (Mapping.under folder base).flatten.keys ∨
          path ∈ (Mapping.under folder upper).flatten.keys := mem_keys_overlaid path
    rw [inFirst, inSecond, mem_under_keys, mem_under_keys, flatten]
    simp only [mem_keys_overlaid, or_and_right, exists_or]
  · intro canonical stay
    apply agree.mpr
    intro path below above isBelow isAbove later
    obtain ⟨foundBelow, belowComes, _⟩ := last_at_some isBelow
    obtain ⟨foundAbove, aboveComes, _⟩ := last_at_some isAbove
    have belowKey : below.1 ∈ (Mapping.overlay base upper).flatten.keys :=
      (mem_keys_overlaid below.1).mpr (Or.inl (Table.mem_keys_of_get? foundBelow))
    have aboveKey : above.1 ∈ (Mapping.overlay base upper).flatten.keys :=
      (mem_keys_overlaid above.1).mpr (Or.inr (Table.mem_keys_of_get? foundAbove))
    have sameKey := apart_in_folder canonical stay aboveKey belowKey
      (aboveComes.trans belowComes.symm)
    rw [sameKey] at later
    exact absurd later (lt_irrefl _)

/-- Two spellings of one object. The upper mapping loses it if it has the earlier spelling, and
wins if it has the later one. Spelled as the lower mapping spells it, it cannot lose it. -/
theorem overlay_nesting_two_spellings :
    let spelled (path : String) (object : ObjectDefinition) : Mapping :=
      .flat (Table.singleton path object)
    let overlaidFirst (base upper : Mapping) := (Mapping.under "f" (.overlay base upper)).flatten
    let movedFirst (base upper : Mapping) :=
      (Mapping.overlay (.under "f" base) (.under "f" upper)).flatten
    let twice : Mapping := .overlay (spelled "./x" {}) (spelled "./x" .folder)
    overlaidFirst (spelled "x" {}) (spelled "./x" .folder) ≠
        movedFirst (spelled "x" {}) (spelled "./x" .folder) ∧
      overlaidFirst (spelled "./x" {}) (spelled "x" .folder) =
        movedFirst (spelled "./x" {}) (spelled "x" .folder) ∧
      twice.flatten.Canonical ∧ (∀ path ∈ twice.asWritten, StaysInside (pieces path)) ∧
      overlaidFirst (spelled "./x" {}) (spelled "./x" .folder) =
        movedFirst (spelled "./x" {}) (spelled "./x" .folder) := by
  intro spelled overlaidFirst movedFirst twice
  have agree := fun base upper => (overlay_nesting "f" base upper).2.2
  have canonical : twice.flatten.Canonical := by
    unfold Table.Canonical
    decide
  have stay : ∀ path ∈ twice.asWritten, StaysInside (pieces path) := by decide
  refine ⟨?_, ?_, canonical, stay, (agree _ _).2 canonical stay⟩
  · intro same
    have sameObject := (agree _ _).1.mp same "f/x" ("x", {}) ("./x", .folder) rfl rfl (by decide)
    cases congrArg (·.properties.kind) sameObject
  · apply (agree _ _).1.mpr
    intro path below above isBelow isAbove later
    have belowKey := Table.mem_keys_of_get? (last_at_some isBelow).1
    have aboveKey := Table.mem_keys_of_get? (last_at_some isAbove).1
    rw [List.mem_singleton.mp belowKey, List.mem_singleton.mp aboveKey] at later
    exact absurd later (by decide)

end StorageScenario.Mapping
