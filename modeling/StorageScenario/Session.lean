import StorageScenario.Context
import StorageScenario.Storage

/-!
A scenario at work: its context, the storage it works on and the lines it has
logged. Work is an action on a session that may fail; whatever it did before
it failed stays done.
-/

namespace StorageScenario

inductive Severity where
  | debug
  | info
  | warn
  deriving DecidableEq

def Severity.name : Severity → String
  | .debug => "DEBUG"
  | .info => "INFO"
  | .warn => "WARN"

structure LogLine where
  severity : Severity
  text : String
  deriving DecidableEq

def LogLine.render (line : LogLine) : String := line.severity.name ++ " " ++ line.text

structure Session where
  context : Context
  storage : Storage
  log : List LogLine := []

abbrev Work (α : Type) := EStateM ScenarioError Session α

namespace Work

def write (severity : Severity) (text : String) : Work Unit :=
  modify fun session => { session with log := session.log ++ [⟨severity, text⟩] }

def note (severity : Severity) (text : String) : Work Unit := do
  write severity ("[" ++ (← get).context.scenario ++ "] " ++ text)

def context : Work Context := do return (← get).context

def updateContext (change : Context → Context) : Work Unit :=
  modify fun session => { session with context := change session.context }

def record (failure : SoftFailure) : Work Unit := do
  note .warn failure.message
  updateContext fun context => context.record failure

def generateName : Work String := do
  let (name, names) := (← context).names.next
  updateContext fun context => { context with names := names }
  return name

def check {σ α : Type} (result : Except ScenarioError α) : EStateM ScenarioError σ α :=
  match result with
  | .ok value => pure value
  | .error error => throw error

/-- A back-end call, made for an operation on a resource. -/
def access {α : Type} (operation : Operation) (resource : String) (call : Access α) : Work α :=
  fun session =>
    match call session.storage with
    | .ok value storage => .ok value { session with storage := storage }
    | .error cause storage =>
        .error (.backend operation resource cause) { session with storage := storage }

end Work

end StorageScenario
