import StorageScenario.Text

/-!
Sizes in bytes as people write them. A written size is a run of decimal digits
and a unit, with blanks around either; the units are powers of 1024. A printed
size has two decimals unless it is a whole number of its unit.
-/

namespace StorageScenario

inductive SizeError where
  | invalidNumber (input : String)
  | unknownUnit (unit : String)
  | overflow (input : String)
  deriving DecidableEq

def SizeError.message : SizeError → String
  | .invalidNumber input => "invalid size number in \"" ++ input ++ "\""
  | .unknownUnit unit => "unknown size unit \"" ++ unit ++ "\""
  | .overflow input => "size \"" ++ input ++ "\" overflows"

namespace ByteSize

open Text

/-- Sizes and positions fit into 64 bits, so they are below this bound. -/
def limit : Nat := 18446744073709551616

def kibi : Nat := 1024

def mebi : Nat := 1024 * kibi

def gibi : Nat := 1024 * mebi

def tebi : Nat := 1024 * gibi

/-- Each unit in lower case with the number of bytes it stands for. -/
def units : List (String × Nat) :=
  [("", 1), ("b", 1), ("k", kibi), ("kb", kibi), ("kib", kibi),
    ("m", mebi), ("mb", mebi), ("mib", mebi), ("g", gibi), ("gb", gibi), ("gib", gibi),
    ("t", tebi), ("tb", tebi), ("tib", tebi)]

def digitsValue (digits : List Char) : Nat :=
  digits.foldl (fun value digit => 10 * value + (digit.toNat - 48)) 0

/-- The number has to stay below the limit both before and after it is scaled
by its unit; the first excess counts as a malformed number. -/
def parse (input : String) : Except SizeError Nat :=
  let letters := trimLetters input.toList
  let digits := letters.takeWhile Char.isDigit
  let unit := String.ofList (trimLetters (letters.dropWhile Char.isDigit))
  let number := digitsValue digits
  if digits = [] ∨ limit ≤ number then .error (.invalidNumber input)
  else
    match units.lookup (lowerAscii unit) with
    | none => .error (.unknownUnit unit)
    | some scale =>
        if number * scale < limit then .ok (number * scale) else .error (.overflow input)

/-- The nearest multiple of `unit`, an exact half going to the even multiple. -/
def roundToMultiple (value unit : Nat) : Nat :=
  let quotient := value / unit
  let twice := 2 * (value % unit)
  if twice < unit ∨ (twice = unit ∧ quotient % 2 = 0) then quotient * unit
  else (quotient + 1) * unit

/-- The nearest number with at most 53 significant binary digits. -/
def roundSignificant (value : Nat) : Nat :=
  roundToMultiple value (1 <<< (Nat.log2 value - 52))

def printedUnits : List String := ["B", "KiB", "MiB", "GiB", "TiB", "PiB", "EiB", "ZiB"]

def twoDigits (value : Nat) : String :=
  if value < 10 then "0" ++ toString value else toString value

def printedScale (place : Nat) : Nat := 1 <<< (10 * place)

def printedPlace (size : Nat) : Nat :=
  ((List.range 7).takeWhile fun place => decide (printedScale (place + 1) ≤ size)).length

/-- A remainder of at most one part in 2 to the 52nd of the unit is not shown. -/
def isWhole (size scale : Nat) : Bool := (size % scale) <<< 52 ≤ scale

def render (size : Nat) : String :=
  let rounded := roundSignificant size
  let place := printedPlace rounded
  let scale := printedScale place
  let unit := printedUnits.getD place ""
  if isWhole rounded scale then toString (rounded / scale) ++ " " ++ unit
  else
    let hundredths := roundToMultiple (rounded * 100) scale / scale
    toString (hundredths / 100) ++ "." ++ twoDigits (hundredths % 100) ++ " " ++ unit

end ByteSize

end StorageScenario
