/-
What a function refers to. Every name, type and selection in its body that
leads to a declaration of the module contributes a definition; functions and
methods found on the way can be read in turn, level by level, each of them
once.
-/
import Assay.Definition
import Assay.Focal.Query
import Assay.Typing.Scope

namespace Assay.Focal

open Assay.Syntax Assay.Source Assay.Typing

/-- A reference: what it refers to, and the body to read on the next level, if
there is one. -/
structure Reference where
  definition : Definition
  next : Option Declaration

namespace Reference

-- ========================================================== definitions

/-- The name in a declaration. -/
def nameIn (declaration : Declaration) : String := declaration.name?.getD ""

/-- A reference to a function or a method. -/
def toFunction (package : Package) (declaration : Declaration) (receiver : Option Receiver) :
    Reference :=
  let name := nameIn declaration
  ⟨.function {
      id := .ofFunction package.id receiver name
      name := name
      package := package.reference
      file := some declaration.file.path
      receiver := receiver
      signature := declaration.signature
      body := some declaration.text },
    some declaration⟩

/-- A reference to a method of an interface. It has no body to show. -/
def toInterfaceMethod (package : Package) (interface : String) (method : Declaration) :
    Reference :=
  let name := nameIn method
  let receiver : Receiver := ⟨interface, .interface⟩
  ⟨.function {
      id := .ofFunction package.id (some receiver) name
      name := name
      package := package.reference
      file := some method.file.path
      receiver := some receiver
      signature := method.text
      body := none },
    none⟩

/-- A reference to a type. -/
def toType (package : Package) (spec : Declaration) : Reference :=
  let name := nameIn spec
  ⟨.type {
      id := .ofType package.id name
      name := name
      package := package.reference
      file := spec.file.path
      body := "type " ++ spec.text },
    none⟩

/-- A reference to the declaration of a type. -/
def toTypeRef? (module : Module) (type : TypeRef) : Option Reference :=
  (typeSpec? module type).map fun (package, spec) => toType package spec

-- =========================================================== references

/-- The node is the key of an element in a composite literal. -/
def isLiteralKey (above : List Label) : Bool :=
  match above with
  | element :: pair :: _ =>
    element.kind == .literalElement && element.role == some .key && pair.kind == .keyedElement
  | _ => false

/-- The node is a name with a package in front. -/
def isQualified (above : List Label) : Bool :=
  match above with
  | parent :: _ => parent.kind == .qualifiedType
  | [] => false

/-- What a name refers to: the type of a variable; else a function or a type of
the package; else the type of a package variable. -/
def ofName? (scope : Scope) (node : Tree) : Option Reference :=
  let module := scope.context.module
  let package := scope.context.package
  let name := scope.text node
  if scope.isLocal name then (scope.localType? name).bind (toTypeRef? module)
  else if scope.isPackageName name then none
  else match package.findFunction? name, package.findType? name with
    | some function, _ => some (toFunction package function none)
    | none, some spec => some (toType package spec)
    | none, none => (scope.infer? node).bind (toTypeRef? module)

/-- What a selection from a package refers to. -/
def ofPackageSelector? (scope : Scope) (package : Package) (node : Tree) (name : String) :
    Option Reference :=
  match package.findFunction? name, package.findType? name with
  | some function, _ => some (toFunction package function none)
  | none, some spec => some (toType package spec)
  | none, none => (scope.infer? node).bind (toTypeRef? scope.context.module)

/-- What a method refers to. One that an interface takes over from another
brings the other along. -/
def ofMethod (owner : TypeRef) : Method → List Reference
  | .concrete package declaration receiver => [toFunction package declaration (some receiver)]
  | .interface package spec declaration =>
    match spec.name? with
    | none => []
    | some interface =>
      toInterfaceMethod package interface declaration ::
        if interface ≠ owner.name || package.id ≠ owner.package then [toType package spec] else []

/-- What a selection from a value refers to: a method, or the type of a
field. -/
def ofValueSelector (scope : Scope) (operand : Tree) (name : String) : List Reference :=
  let module := scope.context.module
  match scope.infer? operand with
  | none => []
  | some owner =>
    match method? module owner name with
    | some method => ofMethod owner method
    | none =>
      ((field? module owner name).bind fun field =>
        (field.context.resolve? field.type).bind (toTypeRef? module)).toList

/-- What a selection refers to. -/
def ofSelector (scope : Scope) (node : Tree) : List Reference :=
  match node.part? .operand, node.part? .field with
  | some operand, some field =>
    let name := scope.text field
    match scope.packageOperand? operand with
    | some package => (ofPackageSelector? scope package node name).toList
    | none =>
      if operand.kind = .identifier && scope.isPackageName (scope.text operand) then []
      else ofValueSelector scope operand name
  | _, _ => []

/-- What a node refers to. -/
def ofVisit (scope : Scope) (visit : Tree.Visit) : List Reference :=
  let node := visit.tree
  let ofType : List Reference :=
    ((scope.context.resolve? node).bind (toTypeRef? scope.context.module)).toList
  match node.kind with
  | .identifier => if isLiteralKey visit.above then [] else (ofName? scope node).toList
  | .typeIdentifier => if isQualified visit.above then [] else ofType
  | .qualifiedType => ofType
  | .selectorExpression => ofSelector scope node
  | _ => []

/-- The references in the body of a function, in the order of the source. -/
def inBody (module : Module) (function : Declaration) : List Reference :=
  match Context.ofFile? module function.file, function.part? .body with
  | some context, some body =>
    (body.visits []).flatMap (ofVisit (Scope.ofFunction context function.node))
  | _, _ => []

end Reference

-- ============================================================== closure

/-- How far the reading of bodies has come: the names met, the definitions
found, and the bodies to read on the next level. -/
structure Reading where
  met : List QualifiedName
  uses : UsageClosure
  next : List Declaration

namespace Reading

/-- Takes a reference in. The function under test is not part of its own
context, and a body is read when its name is met for the first time. -/
def take (focal : QualifiedName) (reading : Reading) (reference : Reference) : Reading :=
  let id := reference.definition.id
  if id = focal then reading
  else if id ∈ reading.met then { reading with uses := reading.uses.add reference.definition }
  else ⟨id :: reading.met, reading.uses.add reference.definition,
    reading.next ++ reference.next.toList⟩

/-- Reads the bodies of one level. -/
def level (module : Module) (focal : QualifiedName) (reading : Reading) : Reading :=
  (reading.next.flatMap (Reference.inBody module)).foldl (take focal) { reading with next := [] }

/-- Reads so many levels, or fewer when nothing is left to read. -/
def levels (module : Module) (focal : QualifiedName) : (depth : Nat) → Reading → Reading
  | 0, reading => reading
  | depth + 1, reading =>
    let after := reading.level module focal
    if after.next.isEmpty then after else levels module focal depth after

end Reading

/-- How many levels of bodies are read when nothing else is asked for. -/
def defaultDepth : Nat := 1

/-- The definitions that a function uses, reading bodies `depth` levels deep; its
own body is always read. -/
def uses (module : Module) (target : Target) (depth : Nat) : UsageClosure :=
  (Reading.levels module target.id (max depth 1)
    ⟨[target.id], Catalog.empty, [target.declaration]⟩).uses

end Assay.Focal
