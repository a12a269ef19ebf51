/-
A parsed file, and declarations as places in one.
-/
import Assay.Path
import Assay.Source.Import
import Assay.Text.Blank

namespace Assay.Source

open Assay.Syntax

/-- A file of a module with its syntax tree. -/
structure File where
  path : String
  source : List Char
  tree : Tree
  packageName : String
  imports : List Import

namespace File

/-- The name in the package clause, or nothing. -/
def clauseName (source : List Char) (tree : Tree) : String :=
  match tree.namedChildren.find? (·.kind == .packageClause) with
  | some clause => ((clause.firstNamed?).map (·.text source)).getD ""
  | none => ""

/-- The file of a source and its tree. -/
def ofTree (path : String) (source : List Char) (tree : Tree) : File :=
  ⟨path, source, tree, clauseName source tree, Import.ofFile source tree⟩

/-- The ending of the names of test files. -/
def testEnding : List Char := "_test.go".toList

/-- The file holds tests. -/
def isTest (file : File) : Bool :=
  match Path.fileName? file.path with
  | some name => Text.endsWith testEnding name.toList
  | none => false

/-- The text of a node of the file. -/
def text (file : File) (node : Tree) : String := node.text file.source

/-- What stands at the top level, comments included. -/
def topLevel (file : File) : List Tree := file.tree.namedChildren

end File

/-- A node and the file it is in. -/
structure Declaration where
  file : File
  node : Tree

namespace Declaration

/-- The text of the declaration. -/
def text (declaration : Declaration) : String := declaration.file.text declaration.node

/-- A part of the declaration. -/
def part? (declaration : Declaration) (role : Role) : Option Tree := declaration.node.part? role

/-- The declared name. -/
def name? (declaration : Declaration) : Option String :=
  (declaration.part? .name).map declaration.file.text

/-- The declaration declares this name. -/
def isNamed (declaration : Declaration) (name : String) : Bool := declaration.name? == some name

/-- The text before the body, without blanks at its end; everything when there
is no body. -/
def signature (declaration : Declaration) : String :=
  match declaration.part? .body with
  | none => declaration.text
  | some body =>
    let start := declaration.node.start
    String.ofList
      (Text.trimEnd ((declaration.file.source.drop start).take (body.start - start)))

end Declaration

end Assay.Source
