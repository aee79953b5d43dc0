import StorageScenario.Text

/-!
Settings of a scenario and how they are read from two environment variables. A
variable that is missing or blank leaves its setting alone.
-/

namespace StorageScenario

inductive SettingsError where
  | invalidBoolean (name value : String)
  | notUnicode (name : String)
  deriving DecidableEq

def SettingsError.message : SettingsError → String
  | .invalidBoolean name value =>
      "environment variable " ++ name ++ " is not a boolean: \"" ++ value ++ "\""
  | .notUnicode name => "environment variable " ++ name ++ " is not valid unicode"

/-- A dry run touches no storage. The local root is where the local service has
its directory. -/
structure Settings where
  dryRun : Bool := false
  localRoot : Option String := none
  deriving DecidableEq

namespace Settings

open Text

def dryRunVariable : String := "RESOURCE_HARNESS_DRY_RUN"

def localRootVariable : String := "RESOURCE_HARNESS_LOCAL_ROOT"

/-- The text of a variable, unless it says nothing. -/
def readVariable (name : String) (value : Option ByteArray) :
    Except SettingsError (Option String) :=
  match value with
  | none => .ok none
  | some bytes =>
      match String.fromUTF8? bytes with
      | none => .error (.notUnicode name)
      | some text => .ok (if trimLetters text.toList = [] then none else some text)

def readBoolean (name text : String) : Except SettingsError Bool :=
  let word := lowerAscii (trim text)
  if word ∈ ["1", "true", "yes", "on"] then .ok true
  else if word ∈ ["0", "false", "no", "off"] then .ok false
  else .error (.invalidBoolean name text)

def read (dryRun localRoot : Option ByteArray) : Except SettingsError Settings := do
  let dryRun ←
    match ← readVariable dryRunVariable dryRun with
    | none => pure false
    | some text => readBoolean dryRunVariable text
  return { dryRun := dryRun, localRoot := ← readVariable localRootVariable localRoot }

def localRootOr (settings : Settings) (temporary : String) : String :=
  settings.localRoot.getD temporary

end Settings

end StorageScenario
