/-
What type expressions denote. Only types declared in the module are known, and
of collections what their keys and elements are; everything else is unknown,
which is an answer too.

The names in a type expression mean something only in a file, so every question
is asked in a `Context`.
-/
import Assay.Source.Module

namespace Assay.Typing

open Assay.Syntax Assay.Source

/-- A type that the module declares, or a pointer to one. -/
structure TypeRef where
  package : String
  name : String
  pointer : Bool
deriving DecidableEq

/-- What indexing or ranging over a collection yields. Collections indexed by
numbers have no key. -/
structure Elements where
  key : Option TypeRef
  element : Option TypeRef
deriving DecidableEq

/-- Where a node is looked at: a file, and the package and the module around
it. -/
structure Context where
  module : Module
  package : Package
  file : File

namespace Context

/-- The context of a loaded file. -/
def ofFile? (module : Module) (file : File) : Option Context :=
  (module.packageOf? file).map (⟨module, ·, file⟩)

/-- The text of a node. -/
def text (context : Context) (node : Tree) : String := context.file.text node

-- ============================================================ type names

/-- A type of a package, when the package declares it. -/
def declared? (package : Package) (name : String) : Option TypeRef :=
  if package.declaresType name then some ⟨package.id, name, false⟩ else none

/-- The type that a name with a package in front stands for. -/
def qualified? (context : Context) (children : List Tree) : Option TypeRef := do
  let package ← children.find? (·.label.role == some .package)
  let name ← children.find? (·.label.role == some .name)
  let imported ← context.module.imported? context.file (context.text package)
  declared? imported (context.text name)

mutual

/-- The declared type that a type expression denotes, looking through
parentheses, pointers and type arguments. -/
def resolve? (context : Context) : Tree → Option TypeRef
  | .node label children =>
    match label.kind with
    | .typeIdentifier => declared? context.package (context.text (.node label children))
    | .qualifiedType => context.qualified? children
    | .pointerType => (context.resolveFirst? children).map ({ · with pointer := true })
    | .genericType => context.resolveGeneric? children
    | .parenthesizedType => context.resolveFirst? children
    | _ => none

/-- The type that the first named node denotes. -/
def resolveFirst? (context : Context) : List Tree → Option TypeRef
  | [] => none
  | tree :: trees =>
    if tree.kind.isNamed then context.resolve? tree else context.resolveFirst? trees

/-- The type that the base of a generic type denotes. -/
def resolveGeneric? (context : Context) : List Tree → Option TypeRef
  | [] => none
  | tree :: trees =>
    if tree.label.role == some .type then context.resolve? tree
    else context.resolveGeneric? trees

end

end Context

/-- The declaration of a type and its package. -/
def typeSpec? (module : Module) (type : TypeRef) : Option (Package × Declaration) := do
  let package ← module.package? type.package
  (package, ·) <$> package.findType? type.name

-- =========================================================== collections

namespace Context

/-- The type that the part of a collection type denotes. -/
def resolvePart? (context : Context) (children : List Tree) (role : Role) : Option TypeRef :=
  (children.find? (·.label.role == some role)).bind context.resolve?

mutual

/-- Keys and elements of a collection type, through pointers and parentheses.
Declared types are left to `named?`. -/
def elementsBy? (context : Context) (named? : TypeRef → Option Elements) :
    Tree → Option Elements
  | .node label children =>
    match label.kind with
    | .sliceType | .arrayType | .implicitLengthArrayType =>
      some ⟨none, context.resolvePart? children .element⟩
    | .mapType => some ⟨context.resolvePart? children .key, context.resolvePart? children .value⟩
    | .pointerType | .parenthesizedType => context.elementsOfFirst? named? children
    | .typeIdentifier | .qualifiedType | .genericType =>
      (context.resolve? (.node label children)).bind named?
    | _ => none

/-- `elementsBy?` on the first named node. -/
def elementsOfFirst? (context : Context) (named? : TypeRef → Option Elements) :
    List Tree → Option Elements
  | [] => none
  | tree :: trees =>
    if tree.kind.isNamed then context.elementsBy? named? tree
    else context.elementsOfFirst? named? trees

end

end Context

/-- Keys and elements of a declared type, following at most `hops` declarations
to the collection underneath. -/
def namedElements? (module : Module) : (hops : Nat) → TypeRef → Option Elements
  | 0, _ => none
  | hops + 1, type => do
    let (_, spec) ← typeSpec? module type
    let underlying ← spec.part? .type
    let context ← Context.ofFile? module spec.file
    context.elementsBy? (namedElements? module hops) underlying

/-- How many declarations are followed to a collection. -/
def namedHops : Nat := 2

/-- Keys and elements of a declared type. -/
def collection? (module : Module) (type : TypeRef) : Option Elements :=
  namedElements? module namedHops type

/-- Keys and elements of a type expression. -/
def Context.elements? (context : Context) (node : Tree) : Option Elements :=
  context.elementsBy? (collection? context.module) node

end Assay.Typing
