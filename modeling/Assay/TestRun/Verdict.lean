/-
What a finished test run means.
-/
import Assay.Process
import Assay.TestRun.Diagnostics
import Assay.TestRun.Invocation

namespace Assay.TestRun

open Text

/-- The outcome of a test run. -/
inductive Verdict where
  | passed
  | compileFailed (diagnostic : List Char)
  | runtimeFailed (diagnostic : List Char)
deriving DecidableEq

/-- Why a run gives no verdict. -/
inductive RunError where
  | notStarted (program : String) (fault : Disk.Fault)
  | unclassified (code : Option Int) (output : List Char)
  | noTestsRan (filter : String)
  | cancelled

/-- How a run without verdict is reported. -/
def RunError.message : RunError → String
  | .notStarted program fault => "starting " ++ program ++ ": " ++ fault.message
  | .unclassified code output =>
    "test process failed without a recognizable diagnostic (exit "
      ++ (match code with | some code => toString code | none => "signal") ++ "):\n"
      ++ String.ofList output
  | .noTestsRan filter => "no test matched " ++ filter
  | .cancelled => "cancelled"

/-- What the test tool prints when its filter matches nothing. -/
def noTests : List Char := "no tests to run".toList

/-- The verdict on a finished run: passed; or else the compiler's messages, or
else the test's own. -/
def classify (invocation : Invocation) (output : ProcessOutput) : Except RunError Verdict :=
  if output.success then
    if occurs noTests output.stdout then .error (.noTestsRan invocation.filter) else .ok .passed
  else match compileErrors output.stderr with
    | _ :: _ => .ok (.compileFailed (compileErrors output.stderr))
    | [] => match failureMessage? output.stdout with
      | some message => .ok (.runtimeFailed message)
      | none =>
        .error (.unclassified output.code
          (trim (trim output.stderr ++ ['\n'] ++ trim output.stdout)))

end Assay.TestRun
