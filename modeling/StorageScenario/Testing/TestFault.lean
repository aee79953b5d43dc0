import StorageScenario.Error
import StorageScenario.Report
import StorageScenario.Settings

/-!
Whatever can end a test or a step of one. What ends a test has a short text and the
text of its cause.
-/

namespace StorageScenario

/-- Why a step fails. A test that cannot be prepared is of no use as a whole. -/
inductive StepError where
  | unnamed (name : String)
  | scenario (error : ScenarioError)
  | backend (error : BackendError)
  | io (cause : IoError)
  | unprepared (cause : IoError)

inductive TestFault where
  | io (text : String)
  | scenario (error : ScenarioError)
  | backend (error : BackendError)
  | settings (error : SettingsError)
  | validation (report : Report)

namespace TestFault

def source : TestFault → String
  | .io text => text
  | .scenario error => error.message
  | .backend error => error.message
  | .settings error => error.message
  | .validation report => report.message

/-- A failed validation speaks for itself. -/
def message : TestFault → String
  | .io _ => "std::io::Error"
  | .scenario _ => "harness error"
  | .backend _ => "back-end error"
  | .settings _ => "configuration error"
  | .validation report => report.message

end TestFault

end StorageScenario
