/-
Existing tests to show as examples: a random sample of the test files near the
package under test, and on request the test file of the function itself.
-/
import Assay.Focal.Query
import Assay.Random.Sample
import Assay.TestPath

namespace Assay

open Source

/-- A test file shown as an example. -/
structure ExampleTest where
  path : String
  content : List Char
deriving DecidableEq

/-- An example could not be read. -/
structure ExampleError where
  path : String
  fault : Disk.Fault

/-- How the failure to read an example is reported. -/
def ExampleError.message (error : ExampleError) : String :=
  "reading " ++ error.path ++ ": " ++ error.fault.message

namespace ExampleTest

-- =========================================================== candidates

/-- How many packages on the way up count as near, the package itself
included. -/
def nearLevels : Nat := 3

/-- An import path and those above it, `levels` in all. -/
def ancestors (id : String) (levels : Nat) : List String :=
  let segments := Text.splitAt (· == '/') id.toList
  (List.range (min levels segments.length)).map fun dropped =>
    String.ofList (Text.join ['/'] (segments.take (segments.length - dropped)))

/-- The package's path begins with the text of one of these, not necessarily at
a segment's end. -/
def isNear (ancestors : List String) (package : Package) : Bool :=
  ancestors.any fun ancestor => Text.beginsWith ancestor.toList package.id.toList

/-- The file that a test file tests exists. -/
def hasSubject (module : Module) (test : File) : Bool :=
  match testedPathFor? test.path with
  | some subject => module.disk.isFile subject
  | none => false

/-- `a` comes before `b`, name by name. -/
def pathPrecedes (a b : String) : Bool := Disk.precedes (Path.names a) (Path.names b)

/-- The test files of near packages that test something, by path. -/
def candidates (module : Module) (ancestors : List String) : List String :=
  let near := module.allPackages.filter (isNear ancestors)
  let tests := (near.flatMap (·.testFiles)).filter (hasSubject module)
  ((tests.map (·.path)).mergeSort pathPrecedes).eraseDups

-- ============================================================ selection

/-- Reads a test file. -/
def read (disk : Disk) (path : String) : Except ExampleError ExampleTest :=
  match disk.readText path with
  | .ok content => .ok ⟨path, content⟩
  | .error fault => .error ⟨path, fault⟩

/-- Adds the test file of the function under test, when there is one that is
not among the examples yet. -/
def withOwn (disk : Disk) (own : String) (picked : List ExampleTest) :
    Except ExampleError (List ExampleTest) :=
  if picked.any fun kept => Path.same kept.path own then .ok picked
  else match disk.readText own with
    | .ok content => .ok (picked ++ [⟨own, content⟩])
    | .error .notFound => .ok picked
    | .error fault => .error ⟨own, fault⟩

/-- What the choice of examples depends on. -/
structure Choice where
  count : Nat
  includeOwn : Bool
  seed : UInt64

/-- The examples for a function. -/
def select (module : Module) (target : Focal.Target) (choice : Choice) :
    Except ExampleError (List ExampleTest) := do
  let found := candidates module (ancestors target.package.id nearLevels)
  let chosen := Random.choose (Random.streamOf choice.seed) found choice.count
  let picked ← chosen.mapM (read module.disk)
  if choice.includeOwn then
    withOwn module.disk (testPathFor target.declaration.file.path) picked
  else return picked

end ExampleTest

end Assay
