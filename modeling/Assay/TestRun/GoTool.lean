/-
Running a test with the Go tool.
-/
import Assay.TestRun.Verdict

namespace Assay.TestRun

/-- The command that runs a test, loudly. -/
def goCommand (go : String) (invocation : Invocation) : Command :=
  ⟨go, ["test", invocation.packageArgument, "-v", "-run", invocation.filter], invocation.root⟩

/-- Runs a test. A tool that cannot be started is reported even when the run is
cancelled; one that was started is then stopped. -/
def goTest (machine : Machine) (go : String) (cancelled : Bool) (invocation : Invocation)
    (disk : Disk) : Except RunError ProcessOutput × Disk :=
  match machine (goCommand go invocation) disk with
  | (.error fault, disk) => (.error (.notStarted go fault), disk)
  | (.ok output, disk) => (if cancelled then .error .cancelled else .ok output, disk)

end Assay.TestRun
