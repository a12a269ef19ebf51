/-
Finding the function under test. It is asked for by name, and by its receiver
where the name alone would not do; the declaration has to be the only one in
its file that answers to the query.
-/
import Assay.Source.Module
import Assay.Text.Blank

namespace Assay.Focal

open Assay.Source

-- ============================================================== queries

/-- What is asked for: a name, perhaps the type it is declared on, and perhaps
that it be declared on pointers to that type. -/
structure Query where
  receiver : Option String
  pointerOnly : Bool
  name : String
deriving DecidableEq

namespace Query

/-- The text around the first dot. -/
def splitDot (text : List Char) : Query :=
  match Text.splitOnce? ['.'] text with
  | some (receiver, name) => ⟨some (String.ofList receiver), false, String.ofList name⟩
  | none => ⟨none, false, String.ofList text⟩

/-- A query as it is written: `Name`, `Type.Name` or `(*Type).Name`. -/
def ofString (query : String) : Query :=
  let text := Text.trim query.toList
  match (Text.after? ['(', '*'] text).bind (Text.splitOnce? [')', '.']) with
  | some (receiver, name) => ⟨some (String.ofList receiver), true, String.ofList name⟩
  | none => splitDot text

/-- A declaration answers to the query. -/
def isAnswered (query : Query) (name : String) (receiver : Option Receiver) : Bool :=
  name == query.name &&
    match query.receiver, receiver with
    | none, _ => true
    | some _, none => false
    | some wanted, some found =>
      wanted == found.typeName && (!query.pointerOnly || found.kind == .pointer)

end Query

-- =========================================================== resolution

/-- A function or method, and the package it is in. -/
structure Target where
  package : Package
  declaration : Declaration
  name : String
  receiver : Option Receiver

/-- The qualified name of the function. -/
def Target.id (target : Target) : QualifiedName :=
  .ofFunction target.package.id target.receiver target.name

/-- Why no function is found. -/
inductive ResolveError where
  | notLoaded (file : String)
  | notFound (name file : String)
  | ambiguous (name file : String) (candidates : List QualifiedName)

/-- How a failure to find the function is reported. -/
def ResolveError.message : ResolveError → String
  | .notLoaded file => file ++ " is not part of any loaded package"
  | .notFound name file => "function " ++ name ++ " not found in " ++ file
  | .ambiguous name file candidates =>
    name ++ " is ambiguous in " ++ file ++ ": "
      ++ ", ".intercalate (candidates.map (·.text))

/-- A top-level node as a function of its file. -/
def target? (package : Package) (file : File) (node : Syntax.Tree) : Option Target :=
  let declaration : Declaration := ⟨file, node⟩
  match node.kind with
  | .functionDeclaration => declaration.name?.map (⟨package, declaration, ·, none⟩)
  | .methodDeclaration =>
    declaration.name?.map (⟨package, declaration, ·, receiver? declaration⟩)
  | _ => none

/-- The functions of a file that answer to a query. -/
def answers (package : Package) (file : File) (query : Query) : List Target :=
  (file.topLevel.filterMap (target? package file)).filter fun target =>
    query.isAnswered target.name target.receiver

/-- The one function of a file that answers to a query. -/
def resolve (module : Module) (path query : String) : Except ResolveError Target :=
  match module.fileAt? path with
  | none => .error (.notLoaded path)
  | some (package, file) =>
    match answers package file (Query.ofString query) with
    | [] => .error (.notFound query file.path)
    | [target] => .ok target
    | targets => .error (.ambiguous query file.path (targets.map (·.id)))

end Assay.Focal
