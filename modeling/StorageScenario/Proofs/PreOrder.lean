import Mathlib.Tactic.SplitIfs
import StorageScenario.Proofs.LevelAlgebra

/-!
The order of a walk. The sites of a definition are told apart by the keys that lead to
them, and in the order of these lists of keys a site comes before everything below it and
siblings stand by their own keys. A walk calls back in that order, once at every site of a
level with a callback, but for the sites below one that is skipped and those after a
callback that failed.
-/

namespace StorageScenario

namespace Text

def bytes (text : String) : List UInt8 := text.toUTF8.data.toList

theorem bytes_eq (text : String) : bytes text = text.toList.flatMap String.utf8EncodeChar := by
  unfold bytes
  rw [String.toUTF8_eq_toByteArray, ← String.utf8Encode_toList, List.utf8Encode]
  exact List.toList_data_toByteArray

/-- The first byte tells how long the code of a character is and grows with it, and in codes
of one length the bytes are the digits of the character, the highest first. -/
theorem encode_lt {first second : Char} (before : first < second) (rest other : List UInt8) :
    String.utf8EncodeChar first ++ rest < String.utf8EncodeChar second ++ other := by
  have below : first.val.toNat < second.val.toNat := UInt32.lt_iff_toNat_lt.mp before
  have bound : second.val.toNat < 0x110000 := by
    rcases second.valid with low | high <;> omega
  have digits (code : Nat) : code = 64 * (code / 64) + code % 64 ∧
      code / 64 = 64 * (code / 4096) + code / 64 % 64 ∧
      code / 4096 = 64 * (code / 262144) + code / 4096 % 64 := by omega
  have firstDigits := digits first.val.toNat
  have secondDigits := digits second.val.toNat
  simp only [String.utf8EncodeChar]
  -- codes of different lengths differ in the first byte, `digits` is for those of one length
  split_ifs <;>
    simp (disch := omega) only [List.cons_append, List.nil_append, List.cons_lt_cons_iff,
      UInt8.lt_iff_toNat_lt, ← UInt8.toNat_inj, UInt8.toNat_ofNat', Nat.mod_eq_of_lt] <;>
    omega

theorem encode_all_lt {first second : List Char} (before : first < second) :
    first.flatMap String.utf8EncodeChar < second.flatMap String.utf8EncodeChar := by
  induction before with
  | nil =>
      rw [List.flatMap_cons, List.flatMap_nil]
      cases encoded : String.utf8EncodeChar _ with
      | nil => exact absurd encoded String.utf8EncodeChar_ne_nil
      | cons byte rest => exact List.nil_lt_cons byte _
  | rel smaller => exact encode_lt smaller _ _
  | cons _ ih => exact List.append_left_lt ih

theorem bytes_lt {first second : String} (before : first < second) :
    bytes first < bytes second := by
  rw [bytes_eq, bytes_eq]
  exact encode_all_lt before

end Text

namespace Definition

def entry? (definition : Definition) (key : String) : Option Definition :=
  match definition with
  | .service inner =>
      (inner.containers.get? key).map fun found => .container (found.boundTo key)
  | .container inner =>
      (inner.objects.flatten.get? key).map fun found => .object (found.boundTo key)
  | .object _ => none

/-- The definition that some keys lead to, the topmost first, next to its resource. -/
def at? : Definition → Resource → List String → Option (Resource × Definition)
  | definition, resource, [] => some (resource, definition)
  | definition, resource, key :: below => do
      let inner ← definition.entry? key
      let child ← (resource.child key inner.kind).toOption
      inner.at? child below

/-- The order of a walk: by the bytes of the first key that differs, and the shorter one
first where there is none. -/
def KeysBefore (first second : List String) : Prop :=
  first.map Text.bytes < second.map Text.bytes

/-- A definition within another one, with the keys that lead to it and its resource. -/
structure Site where
  keys : List String
  resource : Resource
  definition : Definition

def sitesUnder (keys : List String) (definition : Definition) (resource : Resource)
    (site : Site) : Prop :=
  ∃ below, site.keys = keys ++ below ∧
    definition.at? resource below = some (site.resource, site.definition)

end Definition

namespace Callbacks

variable {σ : Type}

open Definition Work

structure Call where
  site : Site
  answer : Except ScenarioError Traversal

namespace Call

/-- The site with these keys is not visited because of the call: it is below one that was
skipped, or it comes after a failure. -/
def bars (call : Call) (keys : List String) : Prop :=
  match call.answer with
  | .ok .descend => False
  | .ok .skipChildren => call.site.keys <+: keys ∧ call.site.keys ≠ keys
  | .error _ => KeysBefore call.site.keys keys

end Call

/-- What calls one after the other make of a state. A call that fails is the last one, and
its error is the result. -/
inductive Calls (callbacks : Callbacks σ) :
    List Call → σ → EStateM.Result ScenarioError σ Unit → Prop
  | none (state : σ) : Calls callbacks [] state (.ok () state)
  | answered {site : Site} {callback : Callback σ} {traversal : Traversal} {before between : σ}
      {rest : List Call} {result : EStateM.Result ScenarioError σ Unit}
      (registered : callbacks.at? site.definition.level = some callback)
      (ran : callback site.resource site.definition before = .ok traversal between)
      (goesOn : Calls callbacks rest between result) :
      Calls callbacks (⟨site, .ok traversal⟩ :: rest) before result
  | failed {site : Site} {callback : Callback σ} {error : ScenarioError} {before after : σ}
      (registered : callbacks.at? site.definition.level = some callback)
      (ran : callback site.resource site.definition before = .error error after) :
      Calls callbacks [⟨site, .error error⟩] before (.error error after)

/-- The calls lead to the result, go along the sites in the order of their keys, and are
made at every site that has a callback and is not barred by one of them. -/
structure PreOrder (callbacks : Callbacks σ) (sites : Site → Prop) (before : σ)
    (result : EStateM.Result ScenarioError σ Unit) (calls : List Call) : Prop where
  made : Calls callbacks calls before result
  ordered : calls.Pairwise fun first second => KeysBefore first.site.keys second.site.keys
  complete : ∀ site, (∃ call ∈ calls, call.site = site) ↔
    sites site ∧ (callbacks.at? site.definition.level).isSome ∧
      ∀ call ∈ calls, ¬ call.bars site.keys

section Keys

variable {keys other : List String}

theorem keys_before_asymm (before : KeysBefore keys other) : ¬ KeysBefore other keys :=
  List.lt_asymm before

theorem keys_before_of_below (inside : keys <+: other) (distinct : keys ≠ other) :
    KeysBefore keys other := by
  obtain ⟨below, rfl⟩ := inside
  cases below with
  | nil => exact absurd (List.append_nil keys).symm distinct
  | cons key rest =>
      unfold KeysBefore
      have longer : keys.map Text.bytes ++ [] <
          keys.map Text.bytes ++ (key :: rest).map Text.bytes :=
        List.append_left_lt (List.nil_lt_cons _ _)
      rwa [List.append_nil, ← List.map_append] at longer

theorem keys_apart {first second : String} (before : first < second)
    (below further : List String) :
    KeysBefore (keys ++ first :: below) (keys ++ second :: further) ∧
      ¬ keys ++ first :: below <+: keys ++ second :: further := by
  constructor
  · unfold KeysBefore
    rw [List.map_append, List.map_append]
    exact List.append_left_lt (List.cons_lt_cons_iff.mpr (Or.inl (Text.bytes_lt before)))
  · intro inside
    have sameKey := (List.cons_prefix_cons.mp ((List.prefix_append_right_inj keys).mp inside)).1
    exact String.ne_of_lt before sameKey

end Keys

section Bars

variable {call : Call} {keys : List String}

theorem later_of_bars (barred : call.bars keys) :
    KeysBefore call.site.keys keys := by
  unfold Call.bars at barred
  split at barred
  · exact barred.elim
  · exact keys_before_of_below barred.1 barred.2
  · exact barred

/-- A call that did not fail bars only what is below its site. -/
theorem below_of_bars {traversal : Traversal} (answered : call.answer = .ok traversal)
    (barred : call.bars keys) : call.site.keys <+: keys := by
  unfold Call.bars at barred
  rw [answered] at barred
  cases traversal with
  | descend => exact barred.elim
  | skipChildren => exact barred.1

theorem bars_of_failure {error : ScenarioError} (failed : call.answer = .error error)
    (later : KeysBefore call.site.keys keys) : call.bars keys := by
  unfold Call.bars
  rw [failed]
  exact later

end Bars

namespace Calls

variable {callbacks : Callbacks σ} {calls more : List Call} {before between : σ}
  {result : EStateM.Result ScenarioError σ Unit}

theorem all_answered (made : Calls callbacks calls before (.ok () between)) :
    ∀ call ∈ calls, ∃ traversal, call.answer = .ok traversal := by
  generalize ended : EStateM.Result.ok () between = result at made
  induction made with
  | none state => simp
  | answered registered ran goesOn ih =>
      intro call member
      rcases List.mem_cons.mp member with same | later
      · exact ⟨_, congrArg Call.answer same⟩
      · exact ih ended call later
  | failed registered ran => cases ended

theorem one_failed {error : ScenarioError}
    (made : Calls callbacks calls before (.error error between)) :
    ∃ call ∈ calls, call.answer = .error error := by
  generalize ended : EStateM.Result.error error between = result at made
  induction made with
  | none state => cases ended
  | answered registered ran goesOn ih =>
      obtain ⟨call, member, failed⟩ := ih ended
      exact ⟨call, List.mem_cons_of_mem _ member, failed⟩
  | failed registered ran =>
      cases ended
      exact ⟨_, List.mem_singleton_self _, rfl⟩

theorem append (made : Calls callbacks calls before (.ok () between))
    (madeMore : Calls callbacks more between result) :
    Calls callbacks (calls ++ more) before result := by
  generalize ended : EStateM.Result.ok () between = first at made
  induction made with
  | none state =>
      cases ended
      exact madeMore
  | answered registered ran goesOn ih => exact .answered registered ran (ih ended)
  | failed registered ran => cases ended

end Calls

/-- However it starts, the action calls back along these sites. -/
def Covers (callbacks : Callbacks σ) (sites : Site → Prop)
    (action : EStateM ScenarioError σ Unit) : Prop :=
  ∀ before, ∃ calls, PreOrder callbacks sites before (action before) calls

/-- Everything in the first part comes before everything in the second and nothing of the
second is below it. -/
def Apart (first second : Site → Prop) : Prop :=
  ∀ site other, first site → second other →
    KeysBefore site.keys other.keys ∧ ¬ site.keys <+: other.keys

section Covering

variable {callbacks : Callbacks σ} {first second : Site → Prop}

theorem PreOrder.is_site {sites : Site → Prop} {before : σ}
    {result : EStateM.Result ScenarioError σ Unit} {calls : List Call}
    (inOrder : PreOrder callbacks sites before result calls) {call : Call}
    (member : call ∈ calls) : sites call.site :=
  ((inOrder.complete call.site).mp ⟨call, member, rfl⟩).1

theorem covers_nothing : Covers callbacks (fun _ => False) (pure ()) := by
  intro before
  refine ⟨[], .none before, List.Pairwise.nil, ?_⟩
  intro site
  constructor
  · rintro ⟨call, member, _⟩
    cases member
  · rintro ⟨inside, _⟩
    exact inside.elim

section Parts

variable {before between : σ} {result : EStateM.Result ScenarioError σ Unit}
  {calls more : List Call} (apart : Apart first second)
include apart

theorem PreOrder.of_failure {error : ScenarioError}
    (inOrder : PreOrder callbacks first before (.error error between) calls) :
    PreOrder callbacks (fun site => first site ∨ second site) before (.error error between)
      calls := by
  obtain ⟨call, member, failed⟩ := inOrder.made.one_failed
  refine ⟨inOrder.made, inOrder.ordered, ?_⟩
  intro site
  rw [inOrder.complete site]
  constructor
  · rintro ⟨inFirst, free⟩
    exact ⟨Or.inl inFirst, free⟩
  · rintro ⟨inFirst | inSecond, free⟩
    · exact ⟨inFirst, free⟩
    · have later := (apart call.site site (inOrder.is_site member) inSecond).1
      exact absurd (bars_of_failure failed later) (free.2 call member)

/-- Without a failure in the first part no call of one part bars a site of the other. -/
theorem PreOrder.append (inOrder : PreOrder callbacks first before (.ok () between) calls)
    (inOrderMore : PreOrder callbacks second between result more) :
    PreOrder callbacks (fun site => first site ∨ second site) before result (calls ++ more) := by
  have freeFirst : ∀ site, first site → ∀ call ∈ more, ¬ call.bars site.keys := by
    intro site inFirst call member barred
    have earlier := (apart site call.site inFirst (inOrderMore.is_site member)).1
    exact keys_before_asymm earlier (later_of_bars barred)
  have freeSecond : ∀ site, second site → ∀ call ∈ calls, ¬ call.bars site.keys := by
    intro site inSecond call member barred
    obtain ⟨traversal, answered⟩ := inOrder.made.all_answered call member
    exact (apart call.site site (inOrder.is_site member) inSecond).2
      (below_of_bars answered barred)
  refine ⟨inOrder.made.append inOrderMore.made, ?_, ?_⟩
  · refine List.pairwise_append.mpr ⟨inOrder.ordered, inOrderMore.ordered, ?_⟩
    intro call member other memberMore
    exact (apart _ _ (inOrder.is_site member) (inOrderMore.is_site memberMore)).1
  intro site
  rw [List.forall_mem_append]
  constructor
  · rintro ⟨call, member, same⟩
    rcases List.mem_append.mp member with early | late
    · obtain ⟨inFirst, registered, free⟩ := (inOrder.complete site).mp ⟨call, early, same⟩
      exact ⟨Or.inl inFirst, registered, free, freeFirst site inFirst⟩
    · obtain ⟨inSecond, registered, free⟩ :=
        (inOrderMore.complete site).mp ⟨call, late, same⟩
      exact ⟨Or.inr inSecond, registered, freeSecond site inSecond, free⟩
  · rintro ⟨inFirst | inSecond, registered, free, freeMore⟩
    · obtain ⟨call, member, same⟩ :=
        (inOrder.complete site).mpr ⟨inFirst, registered, free⟩
      exact ⟨call, List.mem_append_left more member, same⟩
    · obtain ⟨call, member, same⟩ :=
        (inOrderMore.complete site).mpr ⟨inSecond, registered, freeMore⟩
      exact ⟨call, List.mem_append_right calls member, same⟩

end Parts

theorem covers_then {action next : EStateM ScenarioError σ Unit} (apart : Apart first second)
    (begins : Covers callbacks first action) (goesOn : Covers callbacks second next) :
    Covers callbacks (fun site => first site ∨ second site) (do action; next) := by
  intro before
  obtain ⟨calls, inOrder⟩ := begins before
  cases ran : action before with
  | error error after =>
      rw [ran] at inOrder
      have stopped : (do action; next : EStateM ScenarioError σ Unit) before =
          .error error after := bind_error_iff.mpr (Or.inl ran)
      rw [stopped]
      exact ⟨calls, inOrder.of_failure apart⟩
  | ok done between =>
      rw [ran] at inOrder
      obtain ⟨more, inOrderMore⟩ := goesOn between
      have joined : (do action; next : EStateM ScenarioError σ Unit) before = next between := by
        simp only [bind, EStateM.bind, ran]
      rw [joined]
      exact ⟨calls ++ more, inOrder.append apart inOrderMore⟩

theorem covers_each {α : Type} {sites : α → Site → Prop}
    {step : α → EStateM ScenarioError σ Unit} {entries : List α}
    (apart : entries.Pairwise fun first second => Apart (sites first) (sites second))
    (each : ∀ entry ∈ entries, Covers callbacks (sites entry) (step entry)) :
    Covers callbacks (fun site => ∃ entry ∈ entries, sites entry site) (entries.forM step) := by
  induction entries with
  | nil =>
      have nothing : (fun site => ∃ entry ∈ ([] : List α), sites entry site) =
          fun _ => False := by simp
      rw [nothing]
      exact covers_nothing
  | cons entry rest ih =>
      obtain ⟨headApart, restApart⟩ := List.pairwise_cons.mp apart
      have parted : (fun site => ∃ other ∈ entry :: rest, sites other site) =
          fun site => sites entry site ∨ ∃ other ∈ rest, sites other site := by simp
      rw [parted]
      refine covers_then ?_ (each entry List.mem_cons_self)
        (ih restApart fun other member => each other (List.mem_cons_of_mem entry member))
      rintro site other inHead ⟨later, member, inRest⟩
      exact headApart later member site other inHead inRest

section Visits

variable (site : Site) {below : Site → Prop} {children : EStateM ScenarioError σ Unit}
  (sameLevel : site.resource.level = site.definition.level)
  (deeper : ∀ other, below other → site.keys <+: other.keys ∧ site.keys ≠ other.keys)

theorem pre_order_of_barring {answer : Except ScenarioError Traversal} {before : σ}
    {result : EStateM.Result ScenarioError σ Unit}
    (registered : (callbacks.at? site.definition.level).isSome)
    (made : Calls callbacks [⟨site, answer⟩] before result)
    (barring : ∀ other, below other → (⟨site, answer⟩ : Call).bars other.keys) :
    PreOrder callbacks (fun other => other = site ∨ below other) before result
      [⟨site, answer⟩] := by
  refine ⟨made, List.pairwise_singleton _ _, ?_⟩
  intro other
  constructor
  · rintro ⟨call, member, same⟩
    cases List.mem_singleton.mp member
    subst same
    refine ⟨Or.inl rfl, registered, ?_⟩
    intro call member barred
    cases List.mem_singleton.mp member
    exact List.lt_irrefl _ (later_of_bars barred)
  · rintro ⟨same | inside, _, free⟩
    · exact ⟨_, List.mem_singleton_self _, same.symm⟩
    · exact absurd (barring other inside) (free _ (List.mem_singleton_self _))

include deeper in
theorem pre_order_of_descending {callback : Callback σ} {before between : σ} {calls : List Call}
    {result : EStateM.Result ScenarioError σ Unit}
    (registered : callbacks.at? site.definition.level = some callback)
    (ran : callback site.resource site.definition before = .ok .descend between)
    (inOrder : PreOrder callbacks below between result calls) :
    PreOrder callbacks (fun other => other = site ∨ below other) before result
      (⟨site, .ok .descend⟩ :: calls) := by
  have above : ∀ call ∈ calls, KeysBefore site.keys call.site.keys := by
    intro call member
    obtain ⟨inside, distinct⟩ := deeper call.site (inOrder.is_site member)
    exact keys_before_of_below inside distinct
  refine ⟨.answered registered ran inOrder.made, ?_, ?_⟩
  · exact List.pairwise_cons.mpr ⟨above, inOrder.ordered⟩
  intro other
  rw [List.forall_mem_cons]
  constructor
  · rintro ⟨call, member, same⟩
    rcases List.mem_cons.mp member with atHead | later
    · subst atHead
      subst same
      refine ⟨Or.inl rfl, Option.isSome_of_eq_some registered, not_false, ?_⟩
      intro call member barred
      exact keys_before_asymm (above call member) (later_of_bars barred)
    · obtain ⟨inside, called, free⟩ := (inOrder.complete other).mp ⟨call, later, same⟩
      exact ⟨Or.inr inside, called, not_false, free⟩
  · rintro ⟨same | inside, called, _, free⟩
    · exact ⟨_, List.mem_cons_self, same.symm⟩
    · obtain ⟨call, member, same⟩ := (inOrder.complete other).mpr ⟨inside, called, free⟩
      exact ⟨call, List.mem_cons_of_mem _ member, same⟩

theorem pre_order_of_unregistered {before : σ} {calls : List Call}
    {result : EStateM.Result ScenarioError σ Unit}
    (unregistered : callbacks.at? site.definition.level = Option.none)
    (inOrder : PreOrder callbacks below before result calls) :
    PreOrder callbacks (fun other => other = site ∨ below other) before result calls := by
  refine ⟨inOrder.made, inOrder.ordered, ?_⟩
  intro other
  rw [inOrder.complete other]
  constructor
  · rintro ⟨inside, free⟩
    exact ⟨Or.inr inside, free⟩
  · rintro ⟨same | inside, called, free⟩
    · rw [same, unregistered] at called
      cases called
    · exact ⟨inside, called, free⟩

include sameLevel deeper in
/-- A site is visited before those below it, and what its callback answers decides about
them. -/
theorem covers_visit (covered : Covers callbacks below children) :
    Covers callbacks (fun other => other = site ∨ below other)
      (callbacks.visit site.resource site.definition children) := by
  intro before
  cases registered : callbacks.at? site.definition.level with
  | none =>
      have called : callbacks.invoke site.resource site.definition before =
          .ok .descend before := by
        unfold invoke
        rw [registered]
        rfl
      obtain ⟨calls, inOrder⟩ := covered before
      rw [visit_of_descend children sameLevel called]
      exact ⟨calls, pre_order_of_unregistered site registered inOrder⟩
  | some callback =>
      have called : callbacks.invoke site.resource site.definition before =
          callback site.resource site.definition before := by
        unfold invoke
        rw [registered]
      have isRegistered := Option.isSome_of_eq_some registered
      cases ran : callback site.resource site.definition before with
      | error error after =>
          rw [visit_of_error children sameLevel (called.trans ran)]
          refine ⟨_, pre_order_of_barring site isRegistered (.failed registered ran) ?_⟩
          intro other inside
          obtain ⟨under, distinct⟩ := deeper other inside
          exact bars_of_failure rfl (keys_before_of_below under distinct)
      | ok traversal between =>
          cases traversal with
          | descend =>
              rw [visit_of_descend children sameLevel (called.trans ran)]
              obtain ⟨calls, inOrder⟩ := covered between
              exact ⟨_, pre_order_of_descending site deeper registered ran inOrder⟩
          | skipChildren =>
              have ended : callbacks.visit site.resource site.definition children before =
                  .ok () between := (visit_ok_iff sameLevel).mpr (Or.inr (called.trans ran))
              rw [ended]
              have made := Calls.answered registered ran (.none between)
              exact ⟨_, pre_order_of_barring site isRegistered made deeper⟩

end Visits

end Covering

section Walking

variable {callbacks : Callbacks σ} {keys : List String}

section Entries

variable {α : Type} {definition : Definition} {resource : Resource} (table : Table α)
  (bound : String × α → Definition) (child : String × α → Resource)
  (declared : ∀ key, definition.entry? key = (table.get? key).map fun value => bound (key, value))
  (paired : ∀ entry ∈ table.entries,
    resource.child entry.1 (bound entry).kind = .ok (child entry))
include declared paired

theorem at_cons_iff (key : String) (below : List String) (found : Resource × Definition) :
    definition.at? resource (key :: below) = some found ↔
      ∃ value, (key, value) ∈ table.entries ∧
        (bound (key, value)).at? (child (key, value)) below = some found := by
  simp only [Definition.at?, declared, Option.bind_eq_bind, Option.bind_eq_some_iff,
    Option.map_eq_some_iff, Table.get?_eq_some_iff]
  constructor
  · rintro ⟨_, ⟨value, member, rfl⟩, next, opened, rest⟩
    rw [paired _ member] at opened
    cases opened
    exact ⟨value, member, rest⟩
  · rintro ⟨value, member, rest⟩
    exact ⟨_, ⟨value, member, rfl⟩, child (key, value), by rw [paired _ member]; rfl, rest⟩

theorem sites_under_iff (site : Site) :
    sitesUnder keys definition resource site ↔
      site = ⟨keys, resource, definition⟩ ∨
        ∃ entry ∈ table.entries,
          sitesUnder (keys ++ [entry.1]) (bound entry) (child entry) site := by
  obtain ⟨siteKeys, siteResource, siteDefinition⟩ := site
  constructor
  · rintro ⟨below, rfl, found⟩
    cases below with
    | nil =>
        cases found
        simp
    | cons key rest =>
        obtain ⟨value, member, foundBelow⟩ :=
          (at_cons_iff table bound child declared paired _ _ _).mp found
        refine Or.inr ⟨(key, value), member, rest, ?_, foundBelow⟩
        rw [List.append_assoc, List.singleton_append]
  · rintro (same | ⟨entry, member, rest, rfl, foundBelow⟩)
    · cases same
      exact ⟨[], (List.append_nil keys).symm, rfl⟩
    · have found := (at_cons_iff table bound child declared paired _ _ _).mpr
        ⟨_, member, foundBelow⟩
      refine ⟨entry.1 :: rest, ?_, found⟩
      rw [List.append_assoc, List.singleton_append]

theorem covers_entries (round : String × α → EStateM ScenarioError σ Unit)
    (sameLevel : resource.level = definition.level)
    (each : ∀ entry ∈ table.entries, Covers callbacks
      (sitesUnder (keys ++ [entry.1]) (bound entry) (child entry)) (round entry)) :
    Covers callbacks (sitesUnder keys definition resource)
      (callbacks.visit resource definition (table.entries.forM round)) := by
  have parted : sitesUnder keys definition resource = fun site => _ :=
    funext fun site => propext (sites_under_iff table bound child declared paired site)
  rw [parted]
  refine covers_visit ⟨keys, resource, definition⟩ sameLevel ?_ (covers_each ?_ each)
  -- whatever is under an entry has the key of the entry right behind the keys so far
  · rintro other ⟨entry, _, below, otherKeys, _⟩
    rw [List.append_assoc, List.singleton_append] at otherKeys
    rw [otherKeys]
    exact ⟨List.prefix_append keys _, fun same => by simp at same⟩
  · refine table.ordered.imp ?_
    rintro first second before site other ⟨below, siteKeys, _⟩ ⟨further, otherKeys, _⟩
    rw [List.append_assoc, List.singleton_append] at siteKeys otherKeys
    rw [siteKeys, otherKeys]
    exact keys_apart before below further

end Entries

theorem visit_object_covers (keys : List String) (handle : ObjectHandle)
    (definition : ObjectDefinition) :
    Covers callbacks (sitesUnder keys (.object definition) (.object handle))
      (callbacks.visitObject (.object handle) definition) := by
  refine covers_entries (∅ : Table ObjectDefinition) (fun entry => .object entry.2)
    (fun _ => .object handle) (fun _ => rfl) ?_ (fun _ => pure ()) rfl ?_
  · intro entry member
    cases member
  · intro entry member
    cases member

theorem visit_container_covers (keys : List String) (handle : ContainerHandle)
    (definition : ContainerDefinition) :
    Covers callbacks (sitesUnder keys (.container definition) (.container handle))
      (callbacks.visitContainer (.container handle) definition) := by
  refine covers_entries definition.objects.flatten
    (fun entry => .object (entry.2.boundTo entry.1))
    (fun entry => .object (handle.object entry.1 entry.2.properties.kind))
    (fun _ => rfl) (fun _ _ => rfl) _ rfl ?_
  intro entry _
  exact visit_object_covers _ _ _

theorem visit_service_covers (keys : List String) (handle : ServiceHandle)
    (definition : ServiceDefinition) :
    Covers callbacks (sitesUnder keys (.service definition) (.service handle))
      (callbacks.visitService (.service handle) definition) := by
  refine covers_entries definition.containers (fun entry => .container (entry.2.boundTo entry.1))
    (fun entry => .container (handle.container entry.1)) (fun _ => rfl) (fun _ _ => rfl) _ rfl ?_
  intro entry _
  exact visit_container_covers _ _ _

theorem traverse_covers (callbacks : Callbacks σ) {definition : Definition} {resource : Resource}
    (sameLevel : resource.level = definition.level) :
    Covers callbacks (sitesUnder [] definition resource)
      (definition.traverse callbacks resource) := by
  cases resource <;> cases definition <;> try cases sameLevel
  · exact visit_service_covers [] _ _
  · exact visit_container_covers [] _ _
  · exact visit_object_covers [] _ _

end Walking

/-- If every callback writes down what it is called with, what is written at the end is the
list of the calls. -/
theorem Calls.recorded {callbacks : Callbacks σ} (log : σ → List (Resource × Definition))
    (records : ∀ level callback, callbacks.at? level = some callback →
      ∀ resource definition before,
        log (left (callback resource definition) before) = log before ++ [(resource, definition)])
    {calls : List Call} {before : σ} {result : EStateM.Result ScenarioError σ Unit}
    (made : Calls callbacks calls before result) :
    log (left (fun _ => result) before) =
      log before ++ calls.map fun call => (call.site.resource, call.site.definition) := by
  induction made with
  | none state => exact (List.append_nil _).symm
  | @answered site callback traversal before between rest result registered ran goesOn ih =>
      have written := records _ _ registered site.resource site.definition before
      rw [left_of_ok ran] at written
      change log (left (fun _ => result) between) = _
      rw [ih, written, List.append_assoc]
      rfl
  | @failed site callback error before after registered ran =>
      have written := records _ _ registered site.resource site.definition before
      rw [left_of_error ran] at written
      exact written

theorem traverse_other_level (callbacks : Callbacks σ) {definition : Definition}
    {resource : Resource} (otherLevel : resource.level ≠ definition.level) (before : σ) :
    definition.traverse callbacks resource before =
      .error (.levelMismatch definition.level resource.level) before := by
  have stopped : ∀ children, callbacks.visit resource definition children before =
      .error (.levelMismatch definition.level resource.level) before := by
    intro children
    unfold visit
    rw [check_level_other otherLevel]
    rfl
  cases definition <;> exact stopped _

end Callbacks

open Callbacks in
/-- A walk over a definition at the level of its resource calls back in the order of the
keys, parents before children and siblings by the bytes of their own keys. A call is made,
once, at every site of the definition that has a callback, with the resource and the
definition of its keys, unless one of the calls bars it: there is none below a site that is
skipped and none after one that fails, and the error of that one is the result. At another
level nothing is called. -/
theorem walks_in_pre_order {σ : Type} (callbacks : Callbacks σ) (definition : Definition)
    (resource : Resource) (before : σ) :
    (resource.level = definition.level →
      ∃ calls : List Call,
        Calls callbacks calls before (definition.traverse callbacks resource before) ∧
        (calls.Pairwise fun first second =>
          Definition.KeysBefore first.site.keys second.site.keys) ∧
        ∀ site, (∃ call ∈ calls, call.site = site) ↔
          definition.at? resource site.keys = some (site.resource, site.definition) ∧
            (callbacks.at? site.definition.level).isSome ∧
              ∀ call ∈ calls, ¬ call.bars site.keys) ∧
    (resource.level ≠ definition.level →
      definition.traverse callbacks resource before =
        .error (.levelMismatch definition.level resource.level) before) := by
  constructor
  · intro sameLevel
    obtain ⟨calls, inOrder⟩ := traverse_covers callbacks sameLevel before
    refine ⟨calls, inOrder.made, inOrder.ordered, ?_⟩
    intro site
    have isSite : Definition.sitesUnder [] definition resource site ↔
        definition.at? resource site.keys = some (site.resource, site.definition) := by
      simp [Definition.sitesUnder]
    rw [inOrder.complete site, isSite]
  · intro otherLevel
    exact traverse_other_level callbacks otherLevel before

/-- The container `b` is skipped and its sibling is not, `b!/torn` fails, and `b!/x` and `c`
are not reached. -/
theorem walks_in_pre_order_skip_and_failure :
    let resource : Resource := .service (.memory ⟨0, "account", .standard⟩ .blob)
    let objects : Mapping := .flat (Table.ofList [("x", {}), ("torn", {})])
    let definition : Definition := .service ⟨Table.ofList
      [("c", {}), ("b", { objects := objects }), ("b!", { objects := objects })]⟩
    let record : Callback (List (Resource × Definition)) := fun resource definition log =>
      let written := log ++ [(resource, definition)]
      if definition.name? = some "torn" then .error (.noAdoptiveChild .object) written
      else if definition.name? = some "b" then .ok .skipChildren written
      else .ok .descend written
    let callbacks := (Callbacks.none.on .container record).on .object record
    resource.level = definition.level ∧
      ∃ calls : List Callbacks.Call,
        Callbacks.Calls callbacks calls [] (definition.traverse callbacks resource []) ∧
        (calls.Pairwise fun first second =>
          Definition.KeysBefore first.site.keys second.site.keys) ∧
        calls.map (fun call => call.site.resource.canonicalName) =
          ["account/blob/b", "account/blob/b!", "account/blob/b!/torn"] ∧
        (definition.traverse callbacks resource).run' [] = none := by
  intro resource objects definition record callbacks
  have sameLevel : resource.level = definition.level := rfl
  refine ⟨sameLevel, ?_⟩
  obtain ⟨calls, made, ordered, _⟩ :=
    (walks_in_pre_order callbacks definition resource []).1 sameLevel
  have records : ∀ level callback, callbacks.at? level = some callback →
      ∀ resource definition before, Work.left (callback resource definition) before =
        before ++ [(resource, definition)] := by
    intro level callback registered resource definition before
    have isRecord : callback = record := by
      cases level <;> cases registered <;> rfl
    subst isRecord
    simp only [Work.left, record]
    split_ifs <;> rfl
  have recorded := made.recorded id records
  have names : (Work.left (definition.traverse callbacks resource) []).map
      (fun entry => entry.1.canonicalName) =
        ["account/blob/b", "account/blob/b!", "account/blob/b!/torn"] := by
    decide +kernel
  refine ⟨calls, made, ordered, ?_, by decide +kernel⟩
  change Work.left (definition.traverse callbacks resource) [] = [] ++ _ at recorded
  rw [recorded, List.nil_append, List.map_map] at names
  exact names

end StorageScenario
