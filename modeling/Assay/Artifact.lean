/-
The test in a generated answer. The answer may come in a fence and may carry a
package clause; what is left has to parse and to hold a test function, which
gives the test its name. Fakes and helpers beside it stay part of the test.
-/
import Assay.Syntax.Fault
import Assay.Text.Blank
import Assay.Text.Lower

namespace Assay

open Syntax

/-- A generated test. -/
structure GeneratedTest where
  name : String
  source : List Char
deriving DecidableEq

/-- Why an answer holds no test. -/
inductive ArtifactError where
  | faulty (faults : List Fault)
  | noTest
deriving DecidableEq

/-- The package clause put in front of a source that has none. -/
def clauseLine : List Char := "package main\n".toList

/-- The description of a fault in a source that was parsed under a clause
line. -/
def faultBelowClause (fault : Fault) : String := { fault with line := fault.line - 1 }.message

/-- How an unusable answer is reported. -/
def ArtifactError.message : ArtifactError → String
  | .faulty faults =>
    "generated code does not parse: " ++ ", ".intercalate (faults.map faultBelowClause)
  | .noTest => "test function not found"

namespace GeneratedTest

-- =============================================================== fences

/-- What opens and closes a fence. -/
def fence : List Char := ['\x60', '\x60', '\x60']

/-- The openings of a fence, the longest first. -/
def openings : List (List Char) := [fence ++ "golang".toList, fence ++ "go".toList, fence]

/-- The text without an opening that it begins with. -/
def dropOpening (text opening : List Char) : List Char := (Text.after? opening text).getD text

/-- The text without a fence around it and without blanks at its ends. Openings
are looked for one after the other, each where the last one left off. -/
def withoutFences (raw : List Char) : List Char :=
  let opened := openings.foldl dropOpening (Text.trim raw)
  Text.trim ((Text.before? fence opened).getD opened)

/-- The text after the line of a package clause, when it begins with one. -/
def withoutClause (text : List Char) : List Char :=
  if Text.beginsWith "package ".toList text then
    match Text.splitOnce? ['\n'] text with
    | some (_, rest) => Text.trimStart rest
    | none => []
  else text

-- ================================================================ names

/-- The name is that of a test: `Test`, and after it no lower-case letter. -/
def isTestName (name : String) : Bool :=
  match Text.after? "Test".toList name.toList with
  | none => false
  | some [] => true
  | some (c :: _) => !Text.isLower c

/-- The names of the functions at the top level. -/
def functionNames (source : List Char) (tree : Tree) : List String :=
  (tree.namedChildren.filter (·.kind == .functionDeclaration)).filterMap fun function =>
    (function.part? .name).map (·.text source)

/-- The test in an answer. -/
def ofAnswer (raw : List Char) : Except ArtifactError GeneratedTest :=
  let source := withoutClause (withoutFences raw)
  let wrapped := clauseLine ++ source
  match parse? wrapped with
  | none => .error (.faulty (faults wrapped))
  | some tree =>
    match (functionNames wrapped tree).find? isTestName with
    | some name => .ok ⟨name, source⟩
    | none => .error .noTest

end GeneratedTest

end Assay
