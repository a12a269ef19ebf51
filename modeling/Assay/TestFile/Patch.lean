/-
Merging a test into a file: the declarations it replaces are taken out, and the
test comes last, after one blank line. A file without content begins with a
package clause.
-/
import Assay.TestFile.Braces
import Assay.TestFile.Stale

namespace Assay.TestFile

open Syntax Text

/-- The file without what the test replaces. -/
def withoutStale (existing : List Char) (test : GeneratedTest) : List Char :=
  if allBlank existing then []
  else match parse? existing with
    | some tree =>
      cut existing (staleSpans existing (.ofTest test) [] tree.namedChildren)
    | none => withoutTest test.name existing

/-- The file with the test. -/
def patch (existing : List Char) (package : String) (test : GeneratedTest) : List Char :=
  let base := withoutStale existing test
  let front := if allBlank base then "package ".toList ++ package.toList else trimEnd base
  front ++ ['\n', '\n'] ++ trim test.source ++ ['\n']

end Assay.TestFile
