/-
The test file of a source file, and back.
-/
import Assay.Path

namespace Assay

/-- What the name of a test file adds to the name of the file it tests. -/
def testSuffix : List Char := "_test.go".toList

/-- The test file of a source file: beside it, and named after it. -/
def testPathFor (source : String) : String :=
  let stem := (Path.stem? source).getD ""
  Path.withFileName source (stem ++ String.ofList testSuffix)

/-- The source file that a test file tests; only names with the right ending
belong to test files. -/
def testedPathFor? (test : String) : Option String := do
  let name ← Path.fileName? test
  let stem ← Text.before? testSuffix name.toList
  return Path.withFileName test (String.ofList (stem ++ ".go".toList))

end Assay
