import StorageScenario.Testing.Preparation

/-!
Assertions on the soft failures of a scenario. An assertion that does not hold
says what was recorded instead.
-/

namespace StorageScenario

def Step.failuresOf (work : Work Unit) : Step (Except ScenarioError Unit × List SoftFailure) :=
  fun bench =>
    let recorded (session : Session) :=
      session.context.failures.drop bench.session.context.failures.length
    match work bench.session with
    | .ok _ session => .ok (.ok (), recorded session) { bench with session := session }
    | .error error session => .ok (.error error, recorded session) { bench with session := session }

namespace Assertion

def listed (failures : List SoftFailure) : String :=
  "\n".intercalate (Report.failureLines failures)

def noFailures (failures : List SoftFailure) : Except String Unit :=
  if failures = [] then .ok ()
  else
    .error ("expected no soft failures, got " ++ toString failures.length ++ ":\n" ++
      listed failures)

def equal (actual expected : Nat) (message : String) : Except String Unit :=
  if actual = expected then .ok ()
  else
    .error ("assertion `left == right` failed: " ++ message ++ "\n  left: " ++ toString actual ++
      "\n right: " ++ toString expected)

def failureCount (failures : List SoftFailure) (expected : Nat) : Except String Unit :=
  equal failures.length expected ("unexpected number of soft failures:\n" ++ listed failures)

def failuresFor (failures : List SoftFailure) (resource : String) (expected : Nat) :
    Except String Unit :=
  equal (failures.countP fun failure => failure.resource == resource) expected
    ("unexpected number of soft failures for " ++ resource ++ ":\n" ++ listed failures)

end Assertion

end StorageScenario
