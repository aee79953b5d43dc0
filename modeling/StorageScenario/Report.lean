import StorageScenario.Text

/-!
Soft failures and the reports made of them. A soft failure is a difference
between a definition and the real resource; recording one does not stop a
scenario.
-/

namespace StorageScenario

inductive SoftFailure where
  | existence (resource : String) (expectedExists : Bool)
  | property (resource field expected actual : String)
  | contentHash (resource expected actual : String)
  deriving DecidableEq

namespace SoftFailure

def resource : SoftFailure → String
  | .existence resource _ => resource
  | .property resource _ _ _ => resource
  | .contentHash resource _ _ => resource

def field : SoftFailure → String
  | .existence _ _ => "existence"
  | .property _ field _ _ => field
  | .contentHash _ _ _ => "content hash"

def message : SoftFailure → String
  | .existence resource true => resource ++ ": expected to exist, but does not"
  | .existence resource false => resource ++ ": expected not to exist, but does"
  | .property resource field expected actual =>
      resource ++ ": " ++ field ++ " must match (expected " ++ expected ++ ", got " ++ actual ++ ")"
  | .contentHash resource expected actual =>
      resource ++ ": bodies differ in hash (expected " ++ expected ++ ", got " ++ actual ++ ")"

def describe : SoftFailure → String
  | .existence resource expectedExists =>
      Text.record "Existence"
        [("resource", Text.quote resource), ("expected_exists", toString expectedExists)]
  | .property resource field expected actual =>
      Text.record "Property"
        [("resource", Text.quote resource), ("field", Text.quote field),
          ("expected", Text.quote expected), ("actual", Text.quote actual)]
  | .contentHash resource expected actual =>
      Text.record "ContentHash"
        [("resource", Text.quote resource), ("expected", Text.quote expected),
          ("actual", Text.quote actual)]

end SoftFailure

structure Report where
  scenario : String
  failures : List SoftFailure
  deriving DecidableEq

namespace Report

def isClean (report : Report) : Bool := report.failures.isEmpty

def failuresFor (report : Report) (resource : String) : List SoftFailure :=
  report.failures.filter fun failure => failure.resource == resource

def failureLines (failures : List SoftFailure) : List String :=
  failures.map fun failure => "  - " ++ failure.message

def message (report : Report) : String :=
  if report.isClean then "scenario \"" ++ report.scenario ++ "\" passed validation"
  else
    "\n".intercalate
      (("scenario \"" ++ report.scenario ++ "\" failed validation with " ++
          toString report.failures.length ++ " failure(s):") :: failureLines report.failures)

/-- A report that is not clean is an error. -/
def toResult (report : Report) : Except Report Unit :=
  if report.isClean then .ok () else .error report

end Report

end StorageScenario
