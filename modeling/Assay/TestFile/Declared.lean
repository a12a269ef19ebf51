/-
What top-level declarations declare: names, and methods by the types they are
declared on.
-/
import Assay.Artifact

namespace Assay.TestFile

open Syntax

/-- A method: the name of its type and its own. -/
structure MethodKey where
  typeName : String
  name : String
deriving DecidableEq

/-- The specifications of a declaration, in parentheses or not. -/
def specs (declaration : Tree) : List Tree :=
  (declaration.namedChildren.flatMap fun child =>
      if child.kind = .varSpecList then child.namedChildren else [child]).filter fun spec =>
    spec.kind == .typeSpec || spec.kind == .typeAlias || spec.kind == .varSpec
      || spec.kind == .constSpec

/-- The names that a declaration declares. -/
def declaredNames (source : List Char) (declaration : Tree) : List String :=
  match declaration.kind with
  | .functionDeclaration => ((declaration.part? .name).map (·.text source)).toList
  | .typeDeclaration | .varDeclaration | .constDeclaration =>
    (specs declaration).flatMap fun spec => (spec.parts .name).map (·.text source)
  | _ => []

/-- The method that a declaration declares. Pointers and type arguments make no
difference. -/
def methodKey? (source : List Char) (declaration : Tree) : Option MethodKey := do
  let name ← declaration.part? .name
  let receiver ← declaration.part? .receiver
  let parameter ← receiver.namedChildren.find? (·.kind == .parameterDeclaration)
  let type ← parameter.part? .type
  let base ← if type.kind = .pointerType then type.firstNamed? else some type
  let named ← if base.kind = .genericType then base.part? .type else some base
  return ⟨named.text source, name.text source⟩

/-- What a test brings along: its name, all names it declares, and its
methods. -/
structure Declared where
  test : String
  names : List String
  methods : List MethodKey

/-- What the top level of a tree declares. -/
def Declared.ofTree (test : String) (source : List Char) (tree : Tree) : Declared :=
  let methods := tree.namedChildren.filter (·.kind == .methodDeclaration)
  ⟨test, test :: tree.namedChildren.flatMap (declaredNames source),
    methods.filterMap (methodKey? source)⟩

/-- What a test declares. A source with faults declares what it would when they
are repaired. -/
def Declared.ofTest (test : GeneratedTest) : Declared :=
  let wrapped := clauseLine ++ test.source
  .ofTree test.name wrapped (parseMended wrapped)

end Assay.TestFile
