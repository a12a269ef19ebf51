/-
Everything that can end a run before its time, by the stage it happens in.
-/
import Assay.Artifact
import Assay.Config.Error
import Assay.Examples
import Assay.Focal.Query
import Assay.Service.GenerationError
import Assay.Source.Load
import Assay.TestFile.Save
import Assay.TestRun.Verdict

namespace Assay

/-- A run that came to no end of its own. -/
inductive Failure where
  | config (error : ConfigError)
  | load (error : Source.LoadError)
  | resolve (error : Focal.ResolveError)
  | examples (error : ExampleError)
  | generation (error : Service.GenerationError)
  | artifact (error : ArtifactError)
  | save (error : TestFile.SaveError)
  | run (error : TestRun.RunError)
  | cancelled

namespace Failure

/-- A failed request; one that was cancelled cancels the run. -/
def ofGeneration : Service.GenerationError → Failure
  | .cancelled => cancelled
  | error => generation error

/-- A failed test run; one that was cancelled cancels the whole. -/
def ofRun : TestRun.RunError → Failure
  | .cancelled => cancelled
  | error => run error

/-- How a failure is reported: the stage first. -/
def message : Failure → String
  | config error => "configuration: " ++ error.message
  | load error => "loading source: " ++ error.message
  | resolve error => "resolving focal function: " ++ error.message
  | examples error => "selecting example tests: " ++ error.message
  | generation error => "generating test: " ++ error.message
  | artifact error => "parsing generated test: " ++ error.message
  | save error => "saving test: " ++ error.message
  | run error => "running test: " ++ error.message
  | cancelled => "cancelled"

end Failure

end Assay
