/-
The first prompt: examples, definitions by package, the function under test and
instructions, in this order. A part with nothing to show is left out.
-/
import Assay.Definition
import Assay.Examples

namespace Assay.Prompt

open Text

/-- What every prompt ends with. -/
def instructions : List Char :=
  "Don't mock, use fakes. Write only the test, only one, with no imports or explanations.\n".toList

/-- A body in a fence for Go code. -/
def fenced (body : List Char) : List Char :=
  "\x60\x60\x60go\n".toList ++ body ++ "\n\x60\x60\x60\n".toList

/-- What comes before the example tests. -/
def exampleHeading : List Char := "Using these tests as examples:\n".toList

/-- The example tests. -/
def exampleSection (examples : List (List Char)) : List Char :=
  match examples with
  | [] => []
  | _ => exampleHeading ++ examples.flatMap (fun content => fenced (trimEnd content) ++ ['\n'])
      ++ ['\n']

/-- The definitions of a package as a file of it, when any has a body. -/
def packageBlock? (package : String) (definitions : List Definition) : Option (List Char) :=
  match definitions.filterMap (·.body) with
  | [] => none
  | bodies =>
    some (trimEnd ("package ".toList ++ package.toList ++ ['\n']
      ++ bodies.flatMap fun body => ['\n'] ++ trimEnd body.toList ++ ['\n']))

/-- The files of the packages that have any body to show. -/
def packageBlocks (groups : Catalog (List Definition)) : List (List Char) :=
  groups.entries.filterMap fun (package, definitions) => packageBlock? package definitions

/-- What comes before the definitions. -/
def groupHeading : List Char := "Given:\n".toList

/-- The definitions, package by package. -/
def groupSection (groups : Catalog (List Definition)) : List Char :=
  match packageBlocks groups with
  | [] => []
  | blocks => groupHeading ++ blocks.flatMap fun block => fenced block ++ ['\n']

/-- The definitions that a function uses. -/
def definitionSection (uses : UsageClosure) : List Char := groupSection uses.byPackage

/-- What comes before the function under test. -/
def focalHeading : List Char := "Write a Go test for:\n".toList

/-- The function under test. -/
def focalSection (source : List Char) : List Char := focalHeading ++ fenced (trimEnd source)

/-- The first prompt, from definitions by package. -/
def arrange (examples : List (List Char)) (groups : Catalog (List Definition))
    (source : List Char) : List Char :=
  exampleSection examples ++ groupSection groups ++ focalSection source ++ instructions

/-- The first prompt. -/
def assemble (examples : List (List Char)) (uses : UsageClosure) (source : List Char) :
    List Char :=
  arrange examples uses.byPackage source

end Assay.Prompt
