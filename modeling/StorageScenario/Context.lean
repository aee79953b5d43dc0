import StorageScenario.NameSource
import StorageScenario.Report
import StorageScenario.Resource
import StorageScenario.Settings

/-!
What a scenario knows of itself: its name and settings, where its fresh names
come from, the soft failures recorded and the resources created so far.
-/

namespace StorageScenario

structure Context where
  scenario : String
  settings : Settings
  names : NameSource
  failures : List SoftFailure := []
  created : List Resource := []

namespace Context

def hasFailed (context : Context) : Bool := !context.failures.isEmpty

def report (context : Context) : Report := ⟨context.scenario, context.failures⟩

def record (context : Context) (failure : SoftFailure) : Context :=
  { context with failures := context.failures ++ [failure] }

def describeSettings (settings : Settings) : String :=
  Text.record "HarnessConfig"
    [("dry_run", toString settings.dryRun),
      ("local_root", Text.optional (settings.localRoot.map Text.quote))]

def describe (context : Context) : String :=
  Text.openRecord "ScenarioContext"
    [("name", Text.quote context.scenario), ("config", describeSettings context.settings),
      ("failures", "[" ++ Text.commaSeparated (context.failures.map SoftFailure.describe) ++ "]"),
      ("created_resources", toString context.created.length)]

end Context

end StorageScenario
