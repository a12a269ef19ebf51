/-
Imports of a file, and the name a file is likely to use for one.
-/
import Assay.Syntax.Tree
import Assay.Text.Search

namespace Assay.Source

open Assay.Text Assay.Syntax

/-- An import: its path, and the name the file gives it if it gives one. -/
structure Import where
  called : Option String
  path : String
deriving DecidableEq

/-- The segment is a major version: a `v` and digits. -/
def isMajorVersion : List Char → Bool
  | 'v' :: digits => !digits.isEmpty && digits.all Char.isDigit
  | _ => false

/-- The name of a package that is not loaded, guessed from its path: the last
segment, or the one before it when the last is a major version. -/
def Import.defaultName (imported : Import) : String :=
  match (splitAt (· == '/') imported.path.toList).reverse with
  | [] => imported.path
  | [last] => String.ofList last
  | last :: before :: _ => String.ofList (if isMajorVersion last then before else last)

/-- The import that a specification declares. Imports for their effect and
imports of all names bind no name and are left out. -/
def Import.ofSpec? (source : List Char) (spec : Tree) : Option Import :=
  match spec.part? .path with
  | none => none
  | some path =>
    let target := String.ofList (strip (fun c => c = '\x22' || c = '\x60') (path.chars source))
    match spec.part? .name with
    | none => some ⟨none, target⟩
    | some name =>
      if name.kind = .dot || name.kind = .blankIdentifier then none
      else some ⟨some (name.text source), target⟩

/-- The imports of a file, in order. -/
def Import.ofFile (source : List Char) (file : Tree) : List Import :=
  (file.namedChildren.filter (·.kind == .importDeclaration)).flatMap fun declaration =>
    (declaration.preorder.filter (·.kind == .importSpec)).filterMap (Import.ofSpec? source)

end Assay.Source
