import StorageScenario.Text.Ranges

/-!
Texts taken apart and put together: what is left behind a beginning, trimming, lower
case of the ASCII letters, and hexadecimal digits, which are lowercase when they are
written and either case when they are read. Last the form in which failures and
descriptions quote values. A quoted text shows every character that has a picture of
its own and escapes the rest, so two different values are never quoted alike.
-/

namespace StorageScenario.Text

def remainder? (start text : String) : Option String :=
  (start.toList.isPrefixOf? text.toList).map String.ofList

def startsWith (text start : String) : Bool := (remainder? start text).isSome

/-- White space as the Unicode property of that name defines it. -/
def blankPoints : List Nat :=
  [0x09, 0x0A, 0x0B, 0x0C, 0x0D, 0x20, 0x85, 0xA0, 0x1680,
    0x2000, 0x2001, 0x2002, 0x2003, 0x2004, 0x2005, 0x2006, 0x2007, 0x2008, 0x2009, 0x200A,
    0x2028, 0x2029, 0x202F, 0x205F, 0x3000]

def isBlank (letter : Char) : Bool := letter.toNat ∈ blankPoints

/-- The text between the first and the last letter that is not blank. -/
def trimLetters (letters : List Char) : List Char :=
  ((letters.dropWhile isBlank).reverse.dropWhile isBlank).reverse

def trim (text : String) : String :=
  String.ofList (trimLetters text.toList)

/-- Letters outside ASCII stay as they are. -/
def lowerAscii (text : String) : String :=
  String.ofList (text.toList.map Char.toLower)

def hexDigit (value : Nat) : Char :=
  Nat.digitChar (value % 16)

def hexByte (byte : UInt8) : List Char :=
  [hexDigit (byte.toNat / 16), hexDigit byte.toNat]

def hexBytes (bytes : List UInt8) : String :=
  String.ofList (bytes.flatMap hexByte)

/-- Without leading zeros. -/
def hexNumber (value : Nat) : String :=
  String.ofList (Nat.toDigits 16 value)

def hexValue? (letter : Char) : Option Nat :=
  if '0' ≤ letter ∧ letter ≤ '9' then some (letter.toNat - '0'.toNat)
  else if 'a' ≤ letter ∧ letter ≤ 'f' then some (letter.toNat - 'a'.toNat + 10)
  else if 'A' ≤ letter ∧ letter ≤ 'F' then some (letter.toNat - 'A'.toNat + 10)
  else none

/-- Two digits for each byte and nothing else. -/
def readHexBytes? : List Char → Option (List UInt8)
  | [] => some []
  | [_] => none
  | high :: low :: rest => do
      let byte := UInt8.ofNat (16 * (← hexValue? high) + (← hexValue? low))
      return byte :: (← readHexBytes? rest)

def pointEscape (letter : Char) : String :=
  "\\u\x7b" ++ hexNumber letter.toNat ++ "\x7d"

def escape (letter : Char) : String :=
  match letter with
  | '"' => "\\\""
  | '\\' => "\\\\"
  | '\t' => "\\t"
  | '\r' => "\\r"
  | '\n' => "\\n"
  | '\x00' => "\\0"
  | _ =>
      if extendsGrapheme letter || isInvisible letter then pointEscape letter
      else letter.toString

def quote (text : String) : String :=
  "\"" ++ String.join (text.toList.map escape) ++ "\""

def commaSeparated (items : List String) : String :=
  ", ".intercalate items

def record (tag : String) (fields : List (String × String)) : String :=
  tag ++ " \x7b " ++
    commaSeparated (fields.map fun field => field.1 ++ ": " ++ field.2) ++ " \x7d"

/-- A value of which some fields are not shown. -/
def openRecord (tag : String) (fields : List (String × String)) : String :=
  tag ++ " \x7b " ++
    commaSeparated (fields.map fun field => field.1 ++ ": " ++ field.2) ++ ", .. \x7d"

def quoteMap (entries : List (String × String)) : String :=
  "\x7b" ++
    commaSeparated (entries.map fun entry => quote entry.1 ++ ": " ++ quote entry.2) ++ "\x7d"

def optional (shown : Option String) : String :=
  match shown with
  | none => "None"
  | some text => "Some(" ++ text ++ ")"

end StorageScenario.Text
