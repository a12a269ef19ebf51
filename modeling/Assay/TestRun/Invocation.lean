/-
How one test is run: in the package of its file, and by its full name.
-/
import Assay.Path

namespace Assay.TestRun

/-- A test to run. -/
structure Invocation where
  root : String
  /-- The package's directory below the root, or the whole directory when it is
  not below the root. -/
  directory : String
  testName : String
deriving DecidableEq

namespace Invocation

/-- The invocation of a test in a file. -/
def ofFile (root file testName : String) : Invocation :=
  let directory := (Path.parent? file).getD ""
  ⟨root, (Path.after? root directory).getD directory, testName⟩

/-- The package, as the test tool is told it. -/
def packageArgument (invocation : Invocation) : String :=
  match Path.names invocation.directory with
  | [] => "."
  | names => "./" ++ "/".intercalate names

/-- A pattern that only the test's name matches. -/
def filter (invocation : Invocation) : String := "^" ++ invocation.testName ++ "$"

end Invocation

end Assay.TestRun
