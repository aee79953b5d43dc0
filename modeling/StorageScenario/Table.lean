/-!
Finite tables from text to values. The entries stand in the order of their keys
by code point and no key occurs twice, so two tables with the same look-ups are
equal and a listing needs no sorting.
-/

namespace StorageScenario

structure Table (α : Type) where
  entries : List (String × α)
  ordered : entries.Pairwise fun first second => first.1 < second.1

namespace Table

variable {α β : Type}

/-- One pass: a new key goes in front of the first larger one and an old key
gets the new value. -/
def insertEntry (key : String) (value : α) : List (String × α) → List (String × α)
  | [] => [(key, value)]
  | head :: rest =>
      if key < head.1 then (key, value) :: head :: rest
      else if head.1 < key then head :: insertEntry key value rest
      else (key, value) :: rest

theorem mem_insert_entry {key : String} {value : α} {entry : String × α}
    {entries : List (String × α)} (present : entry ∈ insertEntry key value entries) :
    entry = (key, value) ∨ entry ∈ entries := by
  induction entries with
  | nil => simpa [insertEntry] using present
  | cons head rest ih =>
      simp only [insertEntry] at present
      split at present
      · simpa using present
      · split at present
        · rcases List.mem_cons.mp present with same | later
          · exact Or.inr (by simp [same])
          · exact (ih later).imp_right (List.mem_cons_of_mem head)
        · rcases List.mem_cons.mp present with same | later
          · exact Or.inl same
          · exact Or.inr (List.mem_cons_of_mem head later)

theorem eq_of_not_lt {first second : String} (left : ¬ first < second)
    (right : ¬ second < first) : first = second :=
  String.le_antisymm (String.not_lt.mp right) (String.not_lt.mp left)

theorem insert_entry_ordered (key : String) (value : α) {entries : List (String × α)}
    (ordered : entries.Pairwise fun first second => first.1 < second.1) :
    (insertEntry key value entries).Pairwise fun first second => first.1 < second.1 := by
  induction entries with
  | nil => simp [insertEntry]
  | cons head rest ih =>
      have tail := (List.pairwise_cons.mp ordered).2
      have above := (List.pairwise_cons.mp ordered).1
      simp only [insertEntry]
      split
      · rename_i below
        refine List.pairwise_cons.mpr ⟨fun entry present => ?_, ordered⟩
        rcases List.mem_cons.mp present with same | later
        · exact same ▸ below
        · exact String.lt_trans below (above entry later)
      · split
        · rename_i past
          refine List.pairwise_cons.mpr ⟨fun entry present => ?_, ih tail⟩
          rcases mem_insert_entry present with same | later
          · exact same ▸ past
          · exact above entry later
        · rename_i notBelow notPast
          have same := eq_of_not_lt notBelow notPast
          exact List.pairwise_cons.mpr ⟨fun entry present => same ▸ above entry present, tail⟩

theorem lookup_entry (other : String) (head : String × α) (rest : List (String × α)) :
    (head :: rest).lookup other = if other = head.1 then some head.2 else rest.lookup other := by
  cases head with
  | mk key value =>
      by_cases same : other = key
      · simp [same]
      · simp [List.lookup_cons, beq_eq_false_iff_ne.mpr same, same]

theorem lookup_insert_entry (key other : String) (value : α) (entries : List (String × α)) :
    (insertEntry key value entries).lookup other =
      if other = key then some value else entries.lookup other := by
  induction entries with
  | nil => simp [insertEntry, lookup_entry]
  | cons head rest ih =>
      simp only [insertEntry]
      split
      · rw [lookup_entry]
      · split
        · rename_i past
          have distinct : head.1 ≠ key := String.ne_of_lt past
          rw [lookup_entry, lookup_entry, ih]
          by_cases atHead : other = head.1 <;> simp_all
        · rename_i notBelow notPast
          have same := eq_of_not_lt notBelow notPast
          rw [lookup_entry, lookup_entry]
          by_cases atKey : other = key <;> simp_all

theorem lookup_without (key other : String) (entries : List (String × α)) :
    (entries.filter fun entry => entry.1 ≠ key).lookup other =
      if other = key then none else entries.lookup other := by
  induction entries with
  | nil => simp
  | cons head rest ih =>
      rw [lookup_entry]
      by_cases dropped : head.1 = key
      · rw [List.filter_cons_of_neg (by simp [dropped]), ih]
        by_cases same : other = key <;> simp_all
      · rw [List.filter_cons_of_pos (by simp [dropped]), lookup_entry, ih]
        by_cases atHead : other = head.1 <;> simp_all

def empty : Table α := ⟨[], List.Pairwise.nil⟩

instance : EmptyCollection (Table α) := ⟨empty⟩

instance : Inhabited (Table α) := ⟨empty⟩

def singleton (key : String) (value : α) : Table α :=
  ⟨[(key, value)], List.pairwise_singleton _ _⟩

def insert (table : Table α) (key : String) (value : α) : Table α :=
  ⟨insertEntry key value table.entries, insert_entry_ordered key value table.ordered⟩

def get? (table : Table α) (key : String) : Option α :=
  table.entries.lookup key

def contains (table : Table α) (key : String) : Bool :=
  (table.get? key).isSome

def size (table : Table α) : Nat := table.entries.length

def keys (table : Table α) : List String := table.entries.map Prod.fst

def filter (keep : String → α → Bool) (table : Table α) : Table α :=
  ⟨table.entries.filter fun entry => keep entry.1 entry.2, table.ordered.filter _⟩

def erase (table : Table α) (key : String) : Table α :=
  table.filter fun other _ => other ≠ key

def map (change : α → β) (table : Table α) : Table β :=
  ⟨table.entries.map fun entry => (entry.1, change entry.2),
    List.pairwise_map.mpr table.ordered⟩

/-- Later pairs replace earlier ones with the same key. -/
def extend (table : Table α) (pairs : List (String × α)) : Table α :=
  pairs.foldl (fun table pair => table.insert pair.1 pair.2) table

def ofList (pairs : List (String × α)) : Table α :=
  empty.extend pairs

def single? (table : Table α) : Option (String × α) :=
  match table.entries with
  | [entry] => some entry
  | _ => none

@[simp]
theorem get?_empty (key : String) : (∅ : Table α).get? key = none := rfl

@[simp]
theorem get?_singleton (key other : String) (value : α) :
    (singleton key value).get? other = if other = key then some value else none := by
  simp [singleton, get?, lookup_entry]

@[simp]
theorem get?_insert (table : Table α) (key other : String) (value : α) :
    (table.insert key value).get? other = if other = key then some value else table.get? other :=
  lookup_insert_entry key other value table.entries

@[simp]
theorem get?_erase (table : Table α) (key other : String) :
    (table.erase key).get? other = if other = key then none else table.get? other :=
  lookup_without key other table.entries

theorem mem_of_lookup {entries : List (String × α)} {key : String} {value : α}
    (found : entries.lookup key = some value) : (key, value) ∈ entries := by
  obtain ⟨before, after, split, _⟩ := List.lookup_eq_some_iff.mp found
  rw [split]
  exact List.mem_append_right before List.mem_cons_self

theorem lookup_distinct_iff {entries : List (String × α)}
    (distinct : (entries.map Prod.fst).Nodup) (key : String) (value : α) :
    entries.lookup key = some value ↔ (key, value) ∈ entries := by
  refine ⟨mem_of_lookup, ?_⟩
  intro member
  induction entries with
  | nil => cases member
  | cons head rest ih =>
      obtain ⟨isNew, tail⟩ := List.nodup_cons.mp distinct
      rw [lookup_entry]
      rcases List.mem_cons.mp member with same | later
      · rw [← same, if_pos rfl]
      · have notHead : key ≠ head.1 := by
          intro same
          exact isNew (List.mem_map.mpr ⟨_, later, same⟩)
        rw [if_neg notHead]
        exact ih tail later

theorem lookup_eq_some_iff {entries : List (String × α)}
    (ordered : entries.Pairwise fun first second => first.1 < second.1) (key : String)
    (value : α) : entries.lookup key = some value ↔ (key, value) ∈ entries := by
  have inOrder : (entries.map Prod.fst).Pairwise (· < ·) := List.pairwise_map.mpr ordered
  exact lookup_distinct_iff (inOrder.imp String.ne_of_lt) key value

theorem get?_eq_some_iff (table : Table α) (key : String) (value : α) :
    table.get? key = some value ↔ (key, value) ∈ table.entries :=
  lookup_eq_some_iff table.ordered key value

theorem get?_filter_of_key (table : Table α) (keep : String → Bool) {key : String}
    (kept : keep key) : (table.filter fun other _ => keep other).get? key = table.get? key := by
  apply Option.ext
  intro value
  rw [get?_eq_some_iff, get?_eq_some_iff]
  simp [filter, kept]

theorem get?_filter (table : Table α) (keep : String → Bool) (key : String) :
    (table.filter fun other _ => keep other).get? key =
      if keep key then table.get? key else none := by
  split
  · rename_i kept
    exact get?_filter_of_key table keep kept
  · rename_i dropped
    apply Option.eq_none_iff_forall_ne_some.mpr
    intro value found
    rw [get?_eq_some_iff] at found
    exact dropped (List.mem_filter.mp found).2

theorem lookup_below_head {head : String × α} {rest : List (String × α)}
    (ordered : (head :: rest).Pairwise fun first second => first.1 < second.1) :
    rest.lookup head.1 = none := by
  have tail := (List.pairwise_cons.mp ordered).2
  have above := (List.pairwise_cons.mp ordered).1
  cases found : rest.lookup head.1 with
  | none => rfl
  | some value =>
      have later := above _ ((lookup_eq_some_iff tail head.1 value).mp found)
      exact absurd later (String.lt_irrefl _)

/-- A loop over entries in the order of their keys, in which every round changes what
its own key leads to and no other, changes what a key leads to at most once. -/
theorem lookup_after_rounds {σ : Type} (look : σ → String → Option β)
    {step : σ → String × α → σ}
    {change : String × α → Option β → Option β}
    (round : ∀ state entry key, look (step state entry) key =
      if key = entry.1 then change entry (look state key) else look state key)
    {entries : List (String × α)}
    (ordered : entries.Pairwise fun first second => first.1 < second.1) (state : σ)
    (key : String) :
    look (entries.foldl step state) key =
      match entries.lookup key with
      | some value => change (key, value) (look state key)
      | none => look state key := by
  induction entries generalizing state with
  | nil => rfl
  | cons head rest ih =>
      have tail := (List.pairwise_cons.mp ordered).2
      rw [List.foldl_cons, ih tail, round, lookup_entry]
      by_cases atHead : key = head.1
      · subst atHead
        simp [lookup_below_head ordered]
      · simp [atHead]

/-- Of several pairs with one key the last one stays. -/
theorem get?_extend (table : Table α) (pairs : List (String × α)) (key : String) :
    (table.extend pairs).get? key = (pairs.reverse.lookup key).or (table.get? key) := by
  induction pairs generalizing table with
  | nil => rfl
  | cons head rest ih =>
      have later := ih (table.insert head.1 head.2)
      rw [get?_insert] at later
      rw [List.reverse_cons, List.lookup_append, lookup_entry, List.lookup_nil]
      change ((table.insert head.1 head.2).extend rest).get? key = _
      rw [later]
      by_cases atHead : key = head.1 <;> simp [atHead]

/-- No key occurs twice, so the order of the entries does not matter to a look-up. -/
theorem lookup_reverse_entries (table : Table α) (key : String) :
    table.entries.reverse.lookup key = table.get? key := by
  have same : ∀ {entries : List (String × α)},
      (entries.Pairwise fun first second => first.1 < second.1) →
        entries.reverse.lookup key = entries.lookup key := by
    intro entries ordered
    induction entries with
    | nil => rfl
    | cons head rest ih =>
        have tail := (List.pairwise_cons.mp ordered).2
        rw [List.reverse_cons, List.lookup_append, ih tail, lookup_entry, lookup_entry]
        by_cases atHead : key = head.1
        · rw [atHead, lookup_below_head ordered]
          simp
        · simp [atHead]
  exact same table.ordered

theorem get?_extend_entries (table upper : Table α) (key : String) :
    (table.extend upper.entries).get? key = (upper.get? key).or (table.get? key) := by
  rw [get?_extend, lookup_reverse_entries]

theorem mem_keys_iff (table : Table α) (key : String) :
    key ∈ table.keys ↔ (table.get? key).isSome := by
  rw [Option.isSome_iff_exists]
  simp only [get?_eq_some_iff, keys, List.mem_map]
  constructor
  · rintro ⟨entry, member, same⟩
    exact ⟨entry.2, same ▸ member⟩
  · rintro ⟨value, member⟩
    exact ⟨(key, value), member, rfl⟩

theorem mem_keys_of_get? {table : Table α} {key : String} {value : α}
    (found : table.get? key = some value) : key ∈ table.keys :=
  (mem_keys_iff table key).mpr (Option.isSome_of_eq_some found)

theorem mem_keys_extend (table : Table α) (pairs : List (String × α)) (key : String) :
    key ∈ (table.extend pairs).keys ↔ key ∈ table.keys ∨ key ∈ pairs.map Prod.fst := by
  have inPairs : (pairs.reverse.lookup key).isSome ↔ key ∈ pairs.map Prod.fst := by
    rw [List.lookup_isSome_iff, List.mem_map]
    simp only [List.mem_reverse, beq_iff_eq]
    constructor
    · rintro ⟨pair, member, same⟩
      exact ⟨pair, member, same.symm⟩
    · rintro ⟨pair, member, same⟩
      exact ⟨pair, member, same.symm⟩
  rw [mem_keys_iff, mem_keys_iff, get?_extend, Option.isSome_or, Bool.or_eq_true, inPairs, or_comm]

theorem mem_keys_insert (table : Table α) (key other : String) (value : α) :
    other ∈ (table.insert key value).keys ↔ other = key ∨ other ∈ table.keys := by
  rw [mem_keys_iff, mem_keys_iff, get?_insert]
  by_cases same : other = key <;> simp [same]

theorem mem_keys_filter (table : Table α) (keep : String → α → Bool) (key : String)
    (member : key ∈ (table.filter keep).keys) : key ∈ table.keys := by
  obtain ⟨entry, kept, same⟩ := List.mem_map.mp member
  exact List.mem_map.mpr ⟨entry, (List.mem_filter.mp kept).1, same⟩

theorem keys_nodup (table : Table α) : table.keys.Nodup := by
  have ordered : table.keys.Pairwise (· < ·) := List.pairwise_map.mpr table.ordered
  exact ordered.imp String.ne_of_lt

theorem size_insert (table : Table α) {key : String} (value : α) (isNew : key ∉ table.keys) :
    (table.insert key value).size = table.size + 1 := by
  have longer : ∀ {entries : List (String × α)}, key ∉ entries.map Prod.fst →
      (insertEntry key value entries).length = entries.length + 1 := by
    intro entries isNew
    induction entries with
    | nil => rfl
    | cons head rest ih =>
        simp only [List.map_cons, List.mem_cons, not_or] at isNew
        simp only [insertEntry]
        split
        · rfl
        · split
          · simp [ih isNew.2]
          · rename_i notBelow notPast
            exact absurd (eq_of_not_lt notBelow notPast) isNew.1
  exact longer isNew

theorem size_extend (table : Table α) {pairs : List (String × α)}
    (distinct : (pairs.map Prod.fst).Nodup) (areNew : ∀ pair ∈ pairs, pair.1 ∉ table.keys) :
    (table.extend pairs).size = table.size + pairs.length := by
  induction pairs generalizing table with
  | nil => rfl
  | cons head rest ih =>
      have headNew : head.1 ∉ table.keys := areNew head (by simp)
      obtain ⟨headApart, restDistinct⟩ := List.nodup_cons.mp distinct
      have restNew : ∀ pair ∈ rest, pair.1 ∉ (table.insert head.1 head.2).keys := by
        intro pair member present
        have inserted := (mem_keys_extend table [head] pair.1).mp present
        rcases inserted with old | same
        · exact areNew pair (by simp [member]) old
        · have atHead : pair.1 = head.1 := by simpa using same
          exact headApart (atHead ▸ List.mem_map_of_mem member)
      have grown := ih (table.insert head.1 head.2) restDistinct restNew
      change ((table.insert head.1 head.2).extend rest).size = _
      rw [grown, size_insert table head.2 headNew, List.length_cons]
      omega

/-- The look-ups of a table determine it. -/
theorem eq_of_get? {first second : Table α} (same : ∀ key, first.get? key = second.get? key) :
    first = second := by
  have sameMembers : ∀ entry, entry ∈ first.entries ↔ entry ∈ second.entries := by
    intro entry
    rw [← get?_eq_some_iff, ← get?_eq_some_iff, same]
  have entriesNodup : ∀ table : Table α, table.entries.Nodup :=
    fun table => table.ordered.imp fun below same =>
      String.ne_of_lt below (congrArg Prod.fst same)
  have permuted := (List.perm_ext_iff_of_nodup (entriesNodup first) (entriesNodup second)).mpr
    sameMembers
  have antisymmetric : ∀ left right : String × α,
      left ∈ first.entries → right ∈ second.entries →
      left.1 < right.1 → right.1 < left.1 → left = right :=
    fun _ _ _ _ below above => absurd (String.lt_trans below above) (String.lt_irrefl _)
  have sameEntries : first.entries = second.entries :=
    permuted.eq_of_pairwise antisymmetric first.ordered second.ordered
  cases first
  cases second
  simpa using sameEntries

theorem insert_comm (table : Table α) {first second : String} (apart : first ≠ second)
    (value other : α) :
    (table.insert first value).insert second other =
      (table.insert second other).insert first value := by
  apply eq_of_get?
  intro key
  simp only [get?_insert]
  by_cases atSecond : key = second
  · subst atSecond
    rw [if_pos rfl, if_neg (Ne.symm apart), if_pos rfl]
  · rw [if_neg atSecond, if_neg atSecond]

theorem of_list_single (key : String) (value : α) : ofList [(key, value)] = singleton key value :=
  rfl

theorem singleton_key {first second : String} {value other : α}
    (same : singleton first value = singleton second other) : first = second := by
  have sameKeys : [first] = [second] := congrArg keys same
  exact List.singleton_inj.mp sameKeys

theorem get?_of_list (pairs : List (String × α)) (key : String) :
    (ofList pairs).get? key = pairs.reverse.lookup key := by
  rw [ofList, get?_extend]
  exact Option.or_none

theorem mem_keys_of_list (pairs : List (String × α)) (key : String) :
    key ∈ (ofList pairs).keys ↔ key ∈ pairs.map Prod.fst := by
  rw [ofList, mem_keys_extend]
  exact or_iff_right List.not_mem_nil

theorem get?_of_list_iff {pairs : List (String × α)}
    (single : ∀ {key first second}, (key, first) ∈ pairs → (key, second) ∈ pairs →
      first = second)
    (key : String) (value : α) :
    (ofList pairs).get? key = some value ↔ (key, value) ∈ pairs := by
  have isPair : ∀ {other}, (ofList pairs).get? key = some other → (key, other) ∈ pairs := by
    intro other found
    rw [get?_of_list] at found
    exact List.mem_reverse.mp (mem_of_lookup found)
  refine ⟨isPair, ?_⟩
  intro member
  have isKey := (mem_keys_of_list pairs key).mpr (List.mem_map_of_mem member)
  obtain ⟨other, found⟩ := Option.isSome_iff_exists.mp ((mem_keys_iff _ key).mp isKey)
  rw [found, single (isPair found) member]

theorem get?_renamed_iff (table : Table α) (rename : String → String)
    (injective : ∀ first ∈ table.keys, ∀ second ∈ table.keys,
      rename first = rename second → first = second) (key : String) (value : α) :
    (ofList (table.entries.map fun entry => (rename entry.1, entry.2))).get? key = some value ↔
      ∃ old, table.get? old = some value ∧ key = rename old := by
  have isPair : ∀ {key value},
      (key, value) ∈ table.entries.map (fun entry => (rename entry.1, entry.2)) ↔
        ∃ old, table.get? old = some value ∧ key = rename old := by
    intro key value
    simp only [get?_eq_some_iff, List.mem_map, Prod.mk.injEq]
    constructor
    · rintro ⟨⟨old, _⟩, member, rfl, rfl⟩
      exact ⟨old, member, rfl⟩
    · rintro ⟨old, member, rfl⟩
      exact ⟨(old, value), member, rfl, rfl⟩
  rw [get?_of_list_iff, isPair]
  intro key first second inFirst inSecond
  obtain ⟨one, isFirst, rfl⟩ := isPair.mp inFirst
  obtain ⟨other, isSecond, same⟩ := isPair.mp inSecond
  have oneKey := mem_keys_of_get? isFirst
  have otherKey := mem_keys_of_get? isSecond
  cases injective one oneKey other otherKey same
  exact Option.some.inj (isFirst.symm.trans isSecond)

theorem lookup_renamed (rename : String → String) {entries : List (String × α)} {key : String}
    (alone : ∀ entry ∈ entries, rename key = rename entry.1 → key = entry.1) :
    (entries.map fun entry => (rename entry.1, entry.2)).lookup (rename key) =
      entries.lookup key := by
  induction entries with
  | nil => rfl
  | cons head rest ih =>
      have later := ih fun entry member => alone entry (List.mem_cons_of_mem head member)
      have atHead : rename key = rename head.1 ↔ key = head.1 :=
        ⟨alone head List.mem_cons_self, congrArg rename⟩
      simp only [List.map_cons, lookup_entry, later, atHead]

/-- Where no two keys get one name, it does not matter whether pairs are gathered into
a table before their keys are renamed or after. -/
theorem of_list_renamed (rename : String → String) {pairs : List (String × α)}
    (injective : ∀ first ∈ pairs.map Prod.fst, ∀ second ∈ pairs.map Prod.fst,
      rename first = rename second → first = second) :
    ofList ((ofList pairs).entries.map fun entry => (rename entry.1, entry.2)) =
      ofList (pairs.map fun entry => (rename entry.1, entry.2)) := by
  have gathered : ∀ entry ∈ (ofList pairs).entries, entry.1 ∈ pairs.map Prod.fst :=
    fun entry member => (mem_keys_of_list pairs entry.1).mp (List.mem_map_of_mem member)
  apply eq_of_get?
  intro name
  rw [get?_of_list, get?_of_list, ← List.map_reverse, ← List.map_reverse]
  by_cases named : ∃ key ∈ pairs.map Prod.fst, rename key = name
  · obtain ⟨key, member, same⟩ := named
    subst same
    rw [lookup_renamed rename, lookup_renamed rename, lookup_reverse_entries, get?_of_list]
    · intro pair inPairs
      exact injective key member pair.1 (List.mem_map_of_mem (List.mem_reverse.mp inPairs))
    · intro entry inTable
      exact injective key member entry.1 (gathered entry (List.mem_reverse.mp inTable))
  · have nowhere : ∀ entries : List (String × α),
        (∀ entry ∈ entries, entry.1 ∈ pairs.map Prod.fst) →
          (entries.map fun entry => (rename entry.1, entry.2)).lookup name = none := by
      intro entries inside
      rw [List.lookup_eq_none_iff]
      intro renamed member
      obtain ⟨entry, inEntries, same⟩ := List.mem_map.mp member
      rw [← same]
      simpa using fun atName => named ⟨entry.1, inside entry inEntries, atName.symm⟩
    rw [nowhere _ fun entry member => gathered entry (List.mem_reverse.mp member),
      nowhere _ fun pair member => List.mem_map_of_mem (List.mem_reverse.mp member)]

theorem lookup_map (change : α → β) (entries : List (String × α)) (key : String) :
    (entries.map fun entry => (entry.1, change entry.2)).lookup key =
      (entries.lookup key).map change := by
  induction entries with
  | nil => rfl
  | cons head rest ih =>
      rw [List.map_cons, lookup_entry, lookup_entry, ih]
      by_cases atHead : key = head.1 <;> simp [atHead]

theorem get?_map (change : α → β) (table : Table α) (key : String) :
    (table.map change).get? key = (table.get? key).map change :=
  lookup_map change table.entries key

theorem map_map {γ : Type} (change : α → β) (further : β → γ) (table : Table α) :
    (table.map change).map further = table.map (further ∘ change) := by
  apply eq_of_get?
  intro key
  rw [get?_map, get?_map, get?_map, Option.map_map]

theorem map_insert (change : α → β) (table : Table α) (key : String) (value : α) :
    (table.insert key value).map change = (table.map change).insert key (change value) := by
  apply eq_of_get?
  intro other
  rw [get?_map, get?_insert, get?_insert, get?_map]
  split <;> rfl

theorem map_extend (change : α → β) (table : Table α) (pairs : List (String × α)) :
    (table.extend pairs).map change =
      (table.map change).extend (pairs.map fun pair => (pair.1, change pair.2)) := by
  induction pairs generalizing table with
  | nil => rfl
  | cons head rest ih =>
      have later := ih (table.insert head.1 head.2)
      rw [map_insert] at later
      exact later

theorem map_of_list (change : α → β) (pairs : List (String × α)) :
    (ofList pairs).map change = ofList (pairs.map fun pair => (pair.1, change pair.2)) :=
  map_extend change empty pairs

instance [DecidableEq α] : DecidableEq (Table α) := fun first second =>
  if same : first.entries = second.entries then
    isTrue (by cases first; cases second; simp_all)
  else
    isFalse fun equal => same (congrArg entries equal)

instance [BEq α] : BEq (Table α) :=
  ⟨fun first second => first.entries == second.entries⟩

end Table

end StorageScenario
