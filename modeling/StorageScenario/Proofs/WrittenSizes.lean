import Mathlib.Data.List.DropRight
import Mathlib.Data.List.Forall2
import Mathlib.Data.Nat.Digits.Defs
import StorageScenario.ByteSize
import StorageScenario.Table

/-!
Written sizes as a grammar: a numeral and a name of a unit, with white space around either.
Reading accepts just the texts of the grammar whose size fits into 64 bits, and gives the
size exactly. A text is refused for its number where no numeral stands first in it, and also
where the numeral alone is too large, whatever its unit.
-/

namespace StorageScenario.ByteSize

open Text

def Blank (letters : List Char) : Prop :=
  ∀ letter ∈ letters, isBlank letter = true

def IsNumeral (letters : List Char) : Prop :=
  letters ≠ [] ∧ ∀ letter ∈ letters, letter.isDigit = true

instance (letters : List Char) : Decidable (Blank letters) := List.decidableBAll _ letters

instance (letters : List Char) : Decidable (IsNumeral letters) :=
  @instDecidableAnd _ _ inferInstance (List.decidableBAll _ letters)

/-- What decimal digits stand for, the last of them for the ones. -/
def numeralValue (digits : List Char) : Nat :=
  Nat.ofDigits 10 (digits.reverse.map fun digit => digit.toNat - '0'.toNat)

def unitNames (exponent : Nat) : List String :=
  match exponent with
  | 0 => ["", "B"]
  | 1 => ["K", "KB", "KiB"]
  | 2 => ["M", "MB", "MiB"]
  | 3 => ["G", "GB", "GiB"]
  | 4 => ["T", "TB", "TiB"]
  | _ => []

def SameLetter (first second : Char) : Prop :=
  first = second ∨
    first.isAlpha = true ∧ second.isAlpha = true ∧
      (first.toNat = second.toNat + 32 ∨ second.toNat = first.toNat + 32)

/-- The texts of the grammar, with their numbers and the powers of 1024 of their units. -/
inductive Writes : List Char → Nat → Nat → Prop where
  | spaced {before digits between unit after : List Char} {exponent : Nat} {name : String}
      (blankBefore : Blank before) (numeral : IsNumeral digits) (blankBetween : Blank between)
      (named : name ∈ unitNames exponent) (spelled : List.Forall₂ SameLetter unit name.toList)
      (blankAfter : Blank after) :
      Writes (before ++ digits ++ between ++ unit ++ after) (numeralValue digits) exponent

/-- A numeral as the first thing in a text that is not blank, and what comes after it. -/
inductive Opens : List Char → Nat → List Char → Prop where
  | leading {before digits rest : List Char} (blankBefore : Blank before)
      (numeral : IsNumeral digits) (ends : ∀ letter ∈ rest.head?, letter.isDigit = false) :
      Opens (before ++ digits ++ rest) (numeralValue digits) rest

section Letters

variable {letter : Char}

theorem blank_range (blank : isBlank letter = true) :
    letter.toNat ≤ 32 ∨ 133 ≤ letter.toNat := by
  have each : ∀ point ∈ blankPoints, point ≤ 32 ∨ 133 ≤ point := by decide
  exact each letter.toNat (of_decide_eq_true blank)

theorem digit_range (letter : Char) :
    letter.isDigit = true ↔ 48 ≤ letter.toNat ∧ letter.toNat ≤ 57 := by
  simp [Char.isDigit, UInt32.le_iff_toNat_le]

theorem alpha_ranges (letter : Char) :
    letter.isAlpha = true ↔
      65 ≤ letter.toNat ∧ letter.toNat ≤ 90 ∨
        97 ≤ letter.toNat ∧ letter.toNat ≤ 122 := by
  have upper : letter.isUpper = true ↔ 65 ≤ letter.toNat ∧ letter.toNat ≤ 90 :=
    decide_eq_true_iff
  have lower : letter.isLower = true ↔ 97 ≤ letter.toNat ∧ letter.toNat ≤ 122 :=
    Bool.and_eq_true_iff.trans (and_congr decide_eq_true_iff decide_eq_true_iff)
  rw [← upper, ← lower]
  exact Bool.or_eq_true_iff

theorem digit_not_blank (digit : letter.isDigit = true) : isBlank letter = false := by
  apply Bool.eq_false_iff.mpr
  intro blank
  have inDigits := (digit_range letter).mp digit
  have inBlanks := blank_range blank
  omega

theorem alpha_not_blank (alpha : letter.isAlpha = true) : isBlank letter = false := by
  apply Bool.eq_false_iff.mpr
  intro blank
  have inLetters := (alpha_ranges letter).mp alpha
  have inBlanks := blank_range blank
  omega

theorem alpha_not_digit (alpha : letter.isAlpha = true) : letter.isDigit = false := by
  apply Bool.eq_false_iff.mpr
  intro digit
  have inLetters := (alpha_ranges letter).mp alpha
  have inDigits := (digit_range letter).mp digit
  omega

theorem blank_not_digit (blank : isBlank letter = true) : letter.isDigit = false := by
  apply Bool.eq_false_iff.mpr
  intro digit
  exact Bool.false_ne_true ((digit_not_blank digit).symm.trans blank)

theorem to_lower_point (letter : Char) :
    letter.toLower.toNat =
      if 65 ≤ letter.toNat ∧ letter.toNat ≤ 90 then letter.toNat + 32 else letter.toNat := by
  have upper : (letter.val ≥ 'A'.val ∧ letter.val ≤ 'Z'.val) ↔
      65 ≤ letter.toNat ∧ letter.toNat ≤ 90 := by
    simp [UInt32.le_iff_toNat_le]
  unfold Char.toLower
  by_cases isUpper : 65 ≤ letter.toNat ∧ letter.toNat ≤ 90
  · rw [dif_pos (upper.mpr isUpper), if_pos isUpper]
    change (letter.val + ('a'.val - 'A'.val)).toNat = letter.val.toNat + 32
    rw [UInt32.toNat_add]
    have small : letter.val.toNat ≤ 90 := isUpper.2
    have step : ('a'.val - 'A'.val).toNat = 32 := by decide
    omega
  · rw [dif_neg (mt upper.mp isUpper), if_neg isUpper]

theorem to_lower_eq_iff (first second : Char) :
    first.toLower = second.toLower ↔ SameLetter first second := by
  rw [← Char.toNat_inj, to_lower_point, to_lower_point, SameLetter, ← Char.toNat_inj,
    alpha_ranges, alpha_ranges]
  split <;> split <;> omega

end Letters

theorem lower_eq_iff (first second : List Char) :
    first.map Char.toLower = second.map Char.toLower ↔
      List.Forall₂ SameLetter first second := by
  rw [← List.forall₂_eq_eq_eq, List.forall₂_map_left_iff, List.forall₂_map_right_iff]
  simp only [to_lower_eq_iff]

theorem digits_value_eq (digits : List Char) : digitsValue digits = numeralValue digits := by
  induction digits using List.reverseRecOn with
  | nil => rfl
  | append_singleton front digit ih =>
      have read : digitsValue (front ++ [digit]) =
          10 * digitsValue front + (digit.toNat - 48) := by
        simp [digitsValue]
      have written : numeralValue (front ++ [digit]) =
          (digit.toNat - 48) + 10 * numeralValue front := by
        simp [numeralValue, Nat.ofDigits_cons]
      rw [read, written, ih, Nat.add_comm]

def Bare (letters : List Char) : Prop :=
  (∀ letter ∈ letters.head?, isBlank letter = false) ∧
    ∀ letter ∈ letters.getLast?, isBlank letter = false

theorem bare_of_each {letters : List Char}
    (each : ∀ letter ∈ letters, isBlank letter = false) : Bare letters :=
  ⟨fun letter first => each letter (List.mem_of_mem_head? first),
    fun letter last => each letter (List.mem_of_mem_getLast? last)⟩

theorem drop_blank_end {letters after : List Char} (blankAfter : Blank after) :
    (letters ++ after).rdropWhile isBlank = letters.rdropWhile isBlank := by
  have blankBack : ∀ letter ∈ after.reverse, isBlank letter = true := by
    intro letter member
    exact blankAfter letter (List.mem_reverse.mp member)
  rw [List.rdropWhile, List.rdropWhile, List.reverse_append,
    List.dropWhile_append_of_pos blankBack]

theorem blank_end (letters : List Char) : Blank (letters.rtakeWhile isBlank) := by
  intro letter member
  exact List.mem_rtakeWhile_imp member

theorem drop_end_of_bare {letters : List Char} (bare : Bare letters) :
    letters.rdropWhile isBlank = letters := by
  apply List.rdropWhile_eq_self_iff.mpr
  intro some
  have last := bare.2 _ (List.getLast?_eq_some_getLast some)
  simp [last]

theorem trim_blank_end {letters after : List Char} (blankAfter : Blank after) :
    trimLetters (letters ++ after) = trimLetters letters := by
  change ((letters ++ after).dropWhile isBlank).rdropWhile isBlank =
    (letters.dropWhile isBlank).rdropWhile isBlank
  rw [List.dropWhile_append]
  split
  · rename_i allBlank
    have nothing : after.dropWhile isBlank = [] := List.dropWhile_eq_nil_iff.mpr blankAfter
    rw [nothing, List.isEmpty_iff.mp allBlank]
  · exact drop_blank_end blankAfter

theorem trim_without_end (letters : List Char) :
    trimLetters (letters.rdropWhile isBlank) = trimLetters letters := by
  calc trimLetters (letters.rdropWhile isBlank)
      = trimLetters (letters.rdropWhile isBlank ++ letters.rtakeWhile isBlank) :=
        (trim_blank_end (blank_end letters)).symm
    _ = trimLetters letters := by rw [List.rdropWhile_append_rtakeWhile]

theorem trim_from_start {before letters : List Char} (blankBefore : Blank before)
    (starts : ∀ letter ∈ letters.head?, isBlank letter = false) :
    trimLetters (before ++ letters) = letters.rdropWhile isBlank := by
  have kept : (before ++ letters).dropWhile isBlank = letters := by
    rw [List.dropWhile_append_of_pos blankBefore]
    cases letters with
    | nil => rfl
    | cons first rest => exact List.dropWhile_cons_of_neg (by simp [starts first rfl])
  rw [trimLetters, kept, List.rdropWhile]

theorem trim_of_bare {before letters after : List Char} (blankBefore : Blank before)
    (bare : Bare letters) (blankAfter : Blank after) :
    trimLetters (before ++ letters ++ after) = letters := by
  rw [trim_blank_end blankAfter, trim_from_start blankBefore bare.1, drop_end_of_bare bare]

/-- What trimming takes away is white space on either side. -/
theorem trim_between (letters : List Char) :
    ∃ before after, Blank before ∧ Blank after ∧
      letters = before ++ trimLetters letters ++ after := by
  refine ⟨letters.takeWhile isBlank, (letters.dropWhile isBlank).rtakeWhile isBlank, ?_,
    blank_end _, ?_⟩
  · intro letter member
    exact List.mem_takeWhile_imp member
  · rw [List.append_assoc]
    change letters = _ ++ ((letters.dropWhile isBlank).rdropWhile isBlank ++ _)
    rw [List.rdropWhile_append_rtakeWhile, List.takeWhile_append_dropWhile]

/-- Behind a numeral only the end of a text is trimmed. -/
theorem trim_behind_numeral {before digits rest : List Char} (blankBefore : Blank before)
    (numeral : IsNumeral digits) :
    trimLetters (before ++ digits ++ rest) = digits ++ rest.rdropWhile isBlank := by
  have solid : ∀ letter ∈ digits, isBlank letter = false := by
    intro letter member
    exact digit_not_blank (numeral.2 letter member)
  have starts : ∀ letter ∈ (digits ++ rest).head?, isBlank letter = false := by
    intro letter first
    rw [List.head?_append_of_ne_nil _ numeral.1] at first
    exact solid letter (List.mem_of_mem_head? first)
  have kept : (digits ++ rest.rdropWhile isBlank).rdropWhile isBlank =
      digits ++ rest.rdropWhile isBlank := by
    apply List.rdropWhile_eq_self_iff.mpr
    intro some
    by_cases nothing : rest.rdropWhile isBlank = []
    · simp only [nothing, List.append_nil]
      simp [solid _ (List.getLast_mem numeral.1)]
    · rw [List.getLast_append_of_ne_nil _ nothing]
      exact List.rdropWhile_last_not _ _ nothing
  rw [List.append_assoc, trim_from_start blankBefore starts]
  calc (digits ++ rest).rdropWhile isBlank
      = (digits ++ rest.rdropWhile isBlank ++ rest.rtakeWhile isBlank).rdropWhile isBlank := by
        rw [List.append_assoc, List.rdropWhile_append_rtakeWhile]
    _ = digits ++ rest.rdropWhile isBlank := by rw [drop_blank_end (blank_end rest), kept]

theorem cut_behind_numeral {before digits rest : List Char} (blankBefore : Blank before)
    (numeral : IsNumeral digits) (ends : ∀ letter ∈ rest.head?, letter.isDigit = false) :
    (trimLetters (before ++ digits ++ rest)).takeWhile Char.isDigit = digits ∧
      trimLetters ((trimLetters (before ++ digits ++ rest)).dropWhile Char.isDigit) =
        trimLetters rest := by
  have sameEnd := trim_without_end rest
  rw [trim_behind_numeral blankBefore numeral, List.takeWhile_append_of_pos numeral.2,
    List.dropWhile_append_of_pos numeral.2]
  cases kept : rest.rdropWhile isBlank with
  | nil =>
      rw [kept] at sameEnd
      exact ⟨List.append_nil digits, sameEnd⟩
  | cons first others =>
      have isFirst : first ∈ rest.head? := by
        obtain ⟨taken, whole⟩ := List.rdropWhile_prefix isBlank (l := rest)
        rw [← whole, kept]
        rfl
      have stops := Bool.eq_false_iff.mp (ends first isFirst)
      rw [List.takeWhile_cons_of_neg stops, List.dropWhile_cons_of_neg stops, ← kept]
      exact ⟨List.append_nil digits, sameEnd⟩

def scale? (unit : List Char) : Option Nat :=
  units.lookup (lowerAscii (String.ofList unit))

def scaled (input : String) (number : Nat) (unit : List Char) : Except SizeError Nat :=
  match scale? unit with
  | none => .error (.unknownUnit (String.ofList unit))
  | some scale =>
      if number * scale < limit then .ok (number * scale) else .error (.overflow input)

theorem parse_eq (input : String) :
    parse input =
      let letters := trimLetters input.toList
      let digits := letters.takeWhile Char.isDigit
      if digits = [] ∨ limit ≤ digitsValue digits then .error (.invalidNumber input)
      else scaled input (digitsValue digits) (trimLetters (letters.dropWhile Char.isDigit)) := by
  unfold parse
  dsimp only
  unfold scaled scale?
  cases units.lookup (lowerAscii (String.ofList
    (trimLetters ((trimLetters input.toList).dropWhile Char.isDigit)))) <;> rfl

theorem parse_of_opens {input : String} {number : Nat} {rest : List Char}
    (opens : Opens input.toList number rest) :
    parse input = if limit ≤ number then .error (.invalidNumber input)
      else scaled input number (trimLetters rest) := by
  generalize isText : input.toList = letters at opens
  cases opens with
  | leading blankBefore numeral ends =>
      obtain ⟨isNumeral, isRest⟩ := cut_behind_numeral blankBefore numeral ends
      simp only [parse_eq, isText, isNumeral, isRest, digits_value_eq, numeral.1, false_or]

theorem opens_of_digit {letters : List Char}
    (digit : (trimLetters letters).takeWhile Char.isDigit ≠ []) :
    ∃ number rest, Opens letters number rest := by
  obtain ⟨before, after, blankBefore, blankAfter, whole⟩ := trim_between letters
  let digits := (trimLetters letters).takeWhile Char.isDigit
  let rest := (trimLetters letters).dropWhile Char.isDigit
  have numeral : IsNumeral digits := ⟨digit, fun letter member => List.mem_takeWhile_imp member⟩
  have ends : ∀ letter ∈ (rest ++ after).head?, letter.isDigit = false := by
    intro letter first
    have stopped := List.head?_dropWhile_not Char.isDigit (trimLetters letters)
    cases isRest : rest with
    | nil =>
        rw [isRest] at first
        exact blank_not_digit (blankAfter letter (List.mem_of_mem_head? first))
    | cons stop others =>
        have dropped : (trimLetters letters).dropWhile Char.isDigit = stop :: others := isRest
        rw [dropped] at stopped
        rw [isRest] at first
        cases first
        exact stopped
  refine ⟨numeralValue digits, rest ++ after, ?_⟩
  have asRead : letters = before ++ digits ++ (rest ++ after) := by
    have joined : digits ++ rest = trimLetters letters := List.takeWhile_append_dropWhile
    rw [List.append_assoc, ← List.append_assoc digits, joined, ← List.append_assoc]
    exact whole
  rw [asRead]
  exact .leading blankBefore numeral ends

theorem opens_iff_digit (letters : List Char) :
    (∃ number rest, Opens letters number rest) ↔
      ∃ letter ∈ (trimLetters letters).head?, letter.isDigit = true := by
  have digits : (trimLetters letters).takeWhile Char.isDigit ≠ [] ↔
      ∃ letter ∈ (trimLetters letters).head?, letter.isDigit = true := by
    cases trimLetters letters with
    | nil => simp
    | cons first rest => by_cases digit : first.isDigit = true <;> simp [digit]
  rw [← digits]
  constructor
  · rintro ⟨number, rest, opens⟩
    cases opens with
    | leading blankBefore numeral ends =>
        rw [(cut_behind_numeral blankBefore numeral ends).1]
        exact numeral.1
  · exact opens_of_digit

theorem parse_unopened {input : String}
    (closed : ¬ ∃ number rest, Opens input.toList number rest) :
    parse input = .error (.invalidNumber input) := by
  have noDigit : (trimLetters input.toList).takeWhile Char.isDigit = [] := by
    by_contra digit
    exact closed (opens_of_digit digit)
  simp only [parse_eq, noDigit, true_or, if_pos]

theorem exponent_of_named {exponent : Nat} {name : String} (named : name ∈ unitNames exponent) :
    exponent < 5 := by
  by_contra above
  have nothing : unitNames exponent = [] := by
    unfold unitNames
    split <;> first | rfl | omega
  rw [nothing] at named
  cases named

theorem unit_names_alpha {exponent : Nat} {name : String} (named : name ∈ unitNames exponent) :
    ∀ letter ∈ name.toList, letter.isAlpha = true := by
  have each : ∀ place < 5, ∀ other ∈ unitNames place,
      other.toList.all Char.isAlpha = true := by
    decide
  exact List.all_eq_true.mp (each exponent (exponent_of_named named) name named)

theorem mem_units_iff (name : String) (scale : Nat) :
    (name, scale) ∈ units ↔
      ∃ exponent, ∃ other ∈ unitNames exponent,
        name = lowerAscii other ∧ scale = 1024 ^ exponent := by
  constructor
  · intro member
    have each : ∀ entry ∈ units, ∃ exponent < 5, ∃ other ∈ unitNames exponent,
        entry.1 = lowerAscii other ∧ entry.2 = 1024 ^ exponent := by decide
    obtain ⟨exponent, _, other, named, same⟩ := each (name, scale) member
    exact ⟨exponent, other, named, same⟩
  · rintro ⟨exponent, other, named, rfl, rfl⟩
    have each : ∀ place < 5, ∀ spelling ∈ unitNames place,
        (lowerAscii spelling, 1024 ^ place) ∈ units := by decide
    exact each exponent (exponent_of_named named) other named

theorem scale_iff (unit : List Char) (scale : Nat) :
    scale? unit = some scale ↔
      ∃ exponent, ∃ name ∈ unitNames exponent,
        List.Forall₂ SameLetter unit name.toList ∧ scale = 1024 ^ exponent := by
  have distinct : (units.map Prod.fst).Nodup := by decide
  have same : ∀ name : String, lowerAscii (String.ofList unit) = lowerAscii name ↔
      List.Forall₂ SameLetter unit name.toList := by
    intro name
    rw [← lower_eq_iff, lowerAscii, lowerAscii, String.ofList_inj, String.toList_ofList]
  rw [scale?, Table.lookup_distinct_iff distinct, mem_units_iff]
  simp only [same]

theorem alpha_of_same_letters {letters name : List Char}
    (spelled : List.Forall₂ SameLetter letters name)
    (alpha : ∀ letter ∈ name, letter.isAlpha = true) :
    ∀ letter ∈ letters, letter.isAlpha = true := by
  induction spelled with
  | nil => exact alpha
  | cons same _ ih =>
      obtain ⟨first, rest⟩ := List.forall_mem_cons.mp alpha
      exact List.forall_mem_cons.mpr
        ⟨same.elim (fun equal => equal ▸ first) And.left, ih rest⟩

theorem opens_of_writes {letters : List Char} {number exponent : Nat}
    (writes : Writes letters number exponent) :
    ∃ rest, Opens letters number rest ∧ scale? (trimLetters rest) = some (1024 ^ exponent) := by
  cases writes with
  | @spaced before digits between unit after _ name blankBefore numeral blankBetween named
      spelled blankAfter =>
      have alpha := alpha_of_same_letters spelled (unit_names_alpha named)
      have noDigit : ∀ letter ∈ between ++ unit ++ after, letter.isDigit = false := by
        intro letter member
        rcases List.mem_append.mp member with member | behind
        · rcases List.mem_append.mp member with space | inUnit
          · exact blank_not_digit (blankBetween letter space)
          · exact alpha_not_digit (alpha letter inUnit)
        · exact blank_not_digit (blankAfter letter behind)
      have trimmed : trimLetters (between ++ unit ++ after) = unit := by
        apply trim_of_bare blankBetween ?_ blankAfter
        exact bare_of_each fun letter member => alpha_not_blank (alpha letter member)
      refine ⟨between ++ unit ++ after, ?_, ?_⟩
      · have grouped : before ++ digits ++ between ++ unit ++ after =
            before ++ digits ++ (between ++ unit ++ after) := by simp only [List.append_assoc]
        rw [grouped]
        exact .leading blankBefore numeral fun letter first =>
          noDigit letter (List.mem_of_mem_head? first)
      · rw [scale_iff, trimmed]
        exact ⟨exponent, name, named, spelled, rfl⟩

theorem writes_of_opens {letters rest : List Char} {number scale : Nat}
    (opens : Opens letters number rest) (isScale : scale? (trimLetters rest) = some scale) :
    ∃ exponent, Writes letters number exponent ∧ scale = 1024 ^ exponent := by
  obtain ⟨exponent, name, named, spelled, same⟩ :=
    (scale_iff (trimLetters rest) scale).mp isScale
  obtain ⟨between, after, blankBetween, blankAfter, whole⟩ := trim_between rest
  refine ⟨exponent, ?_, same⟩
  cases opens with
  | @leading before digits _ blankBefore numeral ends =>
      have grouped : before ++ digits ++ rest =
          before ++ digits ++ between ++ trimLetters rest ++ after := by
        conv => lhs; rw [whole]
        simp only [List.append_assoc]
      rw [grouped]
      exact .spaced blankBefore numeral blankBetween named spelled blankAfter

theorem parse_of_writes {input : String} {number exponent : Nat}
    (writes : Writes input.toList number exponent) :
    parse input =
      if 2 ^ 64 ≤ number then .error (.invalidNumber input)
      else if number * 1024 ^ exponent < 2 ^ 64 then .ok (number * 1024 ^ exponent)
      else .error (.overflow input) := by
  obtain ⟨rest, opens, isScale⟩ := opens_of_writes writes
  rw [parse_of_opens opens, scaled, isScale]
  rfl

theorem parse_without_unit {input : String} {number : Nat} {rest : List Char}
    (opens : Opens input.toList number rest) (unnamed : scale? (trimLetters rest) = none) :
    parse input =
      if 2 ^ 64 ≤ number then .error (.invalidNumber input)
      else .error (.unknownUnit (String.ofList (trimLetters rest))) := by
  rw [parse_of_opens opens, scaled, unnamed]
  rfl

/-- A text has no number in front, or is of the grammar, or names no unit. -/
theorem reading_cases (letters : List Char) :
    (¬ ∃ number rest, Opens letters number rest) ∨
      (∃ number exponent, Writes letters number exponent) ∨
      ∃ number rest, Opens letters number rest ∧ scale? (trimLetters rest) = none := by
  by_cases opened : ∃ number rest, Opens letters number rest
  · obtain ⟨number, rest, opens⟩ := opened
    cases isScale : scale? (trimLetters rest) with
    | none => exact Or.inr (Or.inr ⟨number, rest, opens, isScale⟩)
    | some scale =>
        obtain ⟨exponent, writes, _⟩ := writes_of_opens opens isScale
        exact Or.inr (Or.inl ⟨number, exponent, writes⟩)
  · exact Or.inl opened

/-- The texts that are read as a size are those of the grammar, as long as the size, which is
never rounded or cut, fits into 64 bits. -/
theorem parse_ok_iff (input : String) (value : Nat) :
    parse input = .ok value ↔
      ∃ number exponent, Writes input.toList number exponent ∧
        value = number * 1024 ^ exponent ∧ value < 2 ^ 64 := by
  constructor
  · intro read
    rcases reading_cases input.toList with closed | ⟨number, exponent, writes⟩ | unnamed
    · rw [parse_unopened closed] at read
      cases read
    · rw [parse_of_writes writes] at read
      split at read
      · cases read
      · split at read
        · rename_i fits
          cases read
          exact ⟨number, exponent, writes, rfl, fits⟩
        · cases read
    · obtain ⟨number, rest, opens, isNone⟩ := unnamed
      rw [parse_without_unit opens isNone] at read
      split at read <;> cases read
  · rintro ⟨number, exponent, writes, rfl, fits⟩
    have small : ¬ 2 ^ 64 ≤ number := by
      have positive : 0 < 1024 ^ exponent := Nat.pow_pos (by decide)
      have above := Nat.le_mul_of_pos_right number positive
      omega
    rw [parse_of_writes writes, if_neg small, if_pos fits]

example : parse "\t007 kIb\n" = .ok 7168 := by decide

theorem overflow_iff {input : String} {number exponent : Nat}
    (writes : Writes input.toList number exponent) (text : String) :
    parse input = .error (.overflow text) ↔
      text = input ∧ number < 2 ^ 64 ∧ 2 ^ 64 ≤ number * 1024 ^ exponent := by
  rw [parse_of_writes writes]
  split
  · rename_i large
    refine iff_of_false (fun refused => nomatch refused) ?_
    rintro ⟨_, small, _⟩
    omega
  · split
    · rename_i fits
      refine iff_of_false (fun refused => nomatch refused) ?_
      rintro ⟨_, _, large⟩
      omega
    · rename_i small large
      constructor
      · intro refused
        cases refused
        exact ⟨rfl, Nat.lt_of_not_le small, Nat.le_of_not_lt large⟩
      · rintro ⟨rfl, _⟩
        rfl

theorem writes_of_overflow {input text : String}
    (refused : parse input = .error (.overflow text)) :
    ∃ number exponent, Writes input.toList number exponent := by
  rcases reading_cases input.toList with closed | written | ⟨number, rest, opens, isNone⟩
  · rw [parse_unopened closed] at refused
    cases refused
  · exact written
  · rw [parse_without_unit opens isNone] at refused
    split at refused <;> cases refused

theorem scaled_keeps_number (input text : String) (number : Nat) (unit : List Char) :
    scaled input number unit ≠ .error (.invalidNumber text) := by
  unfold scaled
  split
  · exact fun refused => nomatch refused
  · split <;> exact fun refused => nomatch refused

theorem invalid_number_iff (input text : String) :
    parse input = .error (.invalidNumber text) ↔
      text = input ∧ ((¬ ∃ number rest, Opens input.toList number rest) ∨
        ∃ number rest, Opens input.toList number rest ∧ 2 ^ 64 ≤ number) := by
  constructor
  · intro refused
    by_cases opened : ∃ number rest, Opens input.toList number rest
    · obtain ⟨number, rest, opens⟩ := opened
      rw [parse_of_opens opens] at refused
      split at refused
      · rename_i large
        cases refused
        exact ⟨rfl, Or.inr ⟨number, rest, opens, large⟩⟩
      · exact absurd refused (scaled_keeps_number input text number _)
    · rw [parse_unopened opened] at refused
      cases refused
      exact ⟨rfl, Or.inl opened⟩
  · rintro ⟨rfl, closed | ⟨number, rest, opens, large⟩⟩
    · exact parse_unopened closed
    · rw [parse_of_opens opens]
      exact if_pos large

/-- A size that does not fit into 64 bits is refused as too large only if its number fits
without the unit. A text is refused for its number if its first letter that is not blank is
no digit, and otherwise just if its number does not fit. -/
theorem parse_refusals (input : String) :
    (∀ number exponent, Writes input.toList number exponent → ∀ text,
      parse input = .error (.overflow text) ↔
        text = input ∧ number < 2 ^ 64 ∧ 2 ^ 64 ≤ number * 1024 ^ exponent) ∧
    (∀ text, parse input = .error (.overflow text) →
      ∃ number exponent, Writes input.toList number exponent) ∧
    ∀ text, parse input = .error (.invalidNumber text) ↔
      text = input ∧
        ((∀ letter ∈ (trim input).toList.head?, letter.isDigit = false) ∨
          ∃ number rest, Opens input.toList number rest ∧ 2 ^ 64 ≤ number) := by
  have noDigit : (¬ ∃ number rest, Opens input.toList number rest) ↔
      ∀ letter ∈ (trim input).toList.head?, letter.isDigit = false := by
    rw [opens_iff_digit, trim, String.toList_ofList]
    simp only [not_exists, not_and, Bool.not_eq_true]
  refine ⟨fun number exponent writes => overflow_iff writes, fun text => writes_of_overflow, ?_⟩
  intro text
  rw [invalid_number_iff, noDigit]

/-- The least number that does not fit, and the number below it, in a unit of 1024 bytes. -/
theorem parse_refusals_large_number :
    let large := "18446744073709551616 kB"
    let small := "18446744073709551615 kB"
    Writes large.toList (2 ^ 64) 1 ∧ Writes small.toList (2 ^ 64 - 1) 1 ∧
      parse large ≠ .error (.overflow large) ∧ parse large = .error (.invalidNumber large) ∧
      parse small = .error (.overflow small) := by
  intro large small
  have unit : List.Forall₂ SameLetter "kB".toList "KB".toList :=
    .cons (Or.inr (by decide)) (.cons (Or.inl rfl) .nil)
  have writes : ∀ number : String, IsNumeral number.toList →
      Writes (number ++ " " ++ "kB").toList (numeralValue number.toList) 1 := by
    intro number numeral
    have parts : (number ++ " " ++ "kB").toList =
        [] ++ number.toList ++ " ".toList ++ "kB".toList ++ [] := by simp
    rw [parts]
    exact .spaced (by decide) numeral (by decide) (by decide) unit (by decide)
  have largeParts : large = "18446744073709551616" ++ " " ++ "kB" := by decide
  have smallParts : small = "18446744073709551615" ++ " " ++ "kB" := by decide
  have largeValue : numeralValue "18446744073709551616".toList = 2 ^ 64 := by decide
  have smallValue : numeralValue "18446744073709551615".toList = 2 ^ 64 - 1 := by decide
  have writesLarge : Writes large.toList (2 ^ 64) 1 := by
    rw [largeParts, ← largeValue]
    exact writes _ (by decide)
  have writesSmall : Writes small.toList (2 ^ 64 - 1) 1 := by
    rw [smallParts, ← smallValue]
    exact writes _ (by decide)
  obtain ⟨rest, opensLarge, _⟩ := opens_of_writes writesLarge
  refine ⟨writesLarge, writesSmall, ?_, ?_, ?_⟩
  · intro refused
    have fits := ((parse_refusals large).1 _ _ writesLarge large).mp refused
    exact Nat.lt_irrefl _ fits.2.1
  · have tooLarge : ∃ number rest, Opens large.toList number rest ∧ 2 ^ 64 ≤ number :=
      ⟨_, rest, opensLarge, Nat.le_refl _⟩
    exact ((parse_refusals large).2.2 large).mpr ⟨rfl, Or.inr tooLarge⟩
  · exact ((parse_refusals small).1 _ _ writesSmall small).mpr ⟨rfl, by norm_num, by norm_num⟩

end StorageScenario.ByteSize
