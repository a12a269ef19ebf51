/-
Types of expressions, as far as declarations tell them: declared variables and
parameters, composite literals, calls of functions with declared results, field
selections, package variables, and what is got out of collections.

Inference follows declarations to other expressions, possibly in a circle, so
it is given a budget. What is known with a budget is defined from what is known
with one less; with none, nothing is.
-/
import Assay.Typing.Member

namespace Assay.Typing

open Assay.Syntax Assay.Source

-- ============================================================== scopes

/-- What is known of a variable. -/
structure Local where
  type : Option TypeRef
  elements : Option Elements
deriving DecidableEq

/-- A variable of which nothing is known. -/
def Local.unknown : Local := ⟨none, none⟩

/-- The variables of a function, the latest first. Blocks are not told apart: a
name declared twice is the variable declared last. -/
structure Scope where
  context : Context
  locals : List (String × Local)

namespace Scope

/-- The scope outside all functions. -/
def ofContext (context : Context) : Scope := ⟨context, []⟩

/-- The variable with a name. -/
def local? (scope : Scope) (name : String) : Option Local :=
  (scope.locals.find? (·.1 == name)).map (·.2)

/-- The name is a variable's. -/
def isLocal (scope : Scope) (name : String) : Bool := (scope.local? name).isSome

/-- The type of a variable. -/
def localType? (scope : Scope) (name : String) : Option TypeRef :=
  (scope.local? name).bind (·.type)

/-- Declares a variable; `_` is none. -/
def insert (scope : Scope) (name : String) (about : Local) : Scope :=
  if name == "_" then scope else { scope with locals := (name, about) :: scope.locals }

/-- The text of a node. -/
def text (scope : Scope) (node : Tree) : String := scope.context.text node

/-- The package that an operand stands for. -/
def packageOperand? (scope : Scope) (operand : Tree) : Option Package :=
  if operand.kind = .identifier && !scope.isLocal (scope.text operand) then
    scope.context.module.imported? scope.context.file (scope.text operand)
  else none

/-- The name stands for an import, loaded or not. -/
def isPackageName (scope : Scope) (name : String) : Bool :=
  !scope.isLocal name && scope.context.module.isImportName scope.context.file name

end Scope

-- ============================================================= knowledge

/-- What can be told of expressions. -/
structure Knowledge where
  type? : Scope → Tree → Option TypeRef
  elements? : Scope → Tree → Option Elements

/-- Nothing can be told. -/
def Knowledge.nothing : Knowledge := ⟨fun _ _ => none, fun _ _ => none⟩

/-- What a call calls. -/
inductive Callee where
  | function (declaration : Declaration)
  | conversion (type : TypeRef)

/-- The function of a package, or the type that a call converts to. -/
def packageCallee? (package : Package) (name : String) : Option Callee :=
  match package.findFunction? name with
  | some declaration => some (.function declaration)
  | none => (Context.declared? package name).map .conversion

/-- The types of a function's results. -/
def resultRefs (module : Module) (function : Declaration) : List (Option TypeRef) :=
  match Context.ofFile? module function.file with
  | none => []
  | some context => (resultTypes function).map context.resolve?

namespace Knowledge

variable (known : Knowledge)

/-- The callee that a name stands for. -/
def namedCallee? (scope : Scope) (name : String) : Option Callee :=
  if scope.isLocal name then none else packageCallee? scope.context.package name

/-- What a call calls, when that is declared in the module. -/
def callee? (scope : Scope) (call : Tree) : Option Callee := do
  let function ← call.part? .function
  match function.kind with
  | .identifier => namedCallee? scope (scope.text function)
  | .selectorExpression =>
    let operand ← function.part? .operand
    let name := scope.text (← function.part? .field)
    match scope.packageOperand? operand with
    | some package => packageCallee? package name
    | none =>
      let owner ← known.type? scope operand
      (.function ·.declaration) <$> method? scope.context.module owner name
  | .parenthesizedExpression =>
    let inner ← function.firstNamed?
    if inner.kind = .identifier then namedCallee? scope (scope.text inner) else none
  | _ => none

/-- The types of a call's results. -/
def callResults (scope : Scope) (call : Tree) : List (Option TypeRef) :=
  match known.callee? scope call with
  | some (.function declaration) => resultRefs scope.context.module declaration
  | some (.conversion type) => [some type]
  | none => []

/-- Keys and elements of one of a call's results. -/
def callElements? (scope : Scope) (call : Tree) (index : Nat) : Option Elements := do
  match ← known.callee? scope call with
  | .function declaration =>
    let result ← (resultTypes declaration)[index]?
    let context ← Context.ofFile? scope.context.module declaration.file
    context.elements? result
  | .conversion type => collection? scope.context.module type

/-- What the value at a place of a specification is: one of as many values, or
one of the results of a single call. -/
def ofValue? {α : Type} (spec : ValueSpec) (ofCall ofExpression : Tree → Option α) : Option α := do
  let list ← spec.declaration.part? .value
  let values := list.namedChildren
  match values with
  | [single] => if 0 < spec.index then ofCall single else ofExpression single
  | _ => ofExpression (← values[spec.index]?)

/-- The type of a package variable or constant. -/
def valueType? (module : Module) (spec : ValueSpec) : Option TypeRef := do
  let context ← Context.ofFile? module spec.declaration.file
  match spec.declaration.part? .type with
  | some type => context.resolve? type
  | none =>
    let scope := Scope.ofContext context
    ofValue? spec (fun call => ((known.callResults scope call)[spec.index]?).join)
      (known.type? scope)

/-- Keys and elements of a package variable or constant. -/
def valueElements? (module : Module) (spec : ValueSpec) : Option Elements := do
  let context ← Context.ofFile? module spec.declaration.file
  match spec.declaration.part? .type with
  | some type => context.elements? type
  | none =>
    let scope := Scope.ofContext context
    ofValue? spec (fun call => known.callElements? scope call spec.index)
      (known.elements? scope)

-- ========================================================== expressions

/-- The type of a name. -/
def nameType? (scope : Scope) (name : String) : Option TypeRef :=
  match scope.local? name with
  | some found => found.type
  | none => (scope.context.package.findValue? name).bind (known.valueType? scope.context.module)

/-- The type of what a unary operator makes of its operand. -/
def unaryType? (scope : Scope) (expression : Tree) : Option TypeRef := do
  let operator := scope.text (← expression.part? .operator)
  let inner ← known.type? scope (← expression.part? .operand)
  if operator == "&" then some { inner with pointer := true }
  else if operator == "*" then some { inner with pointer := false }
  else none

/-- The type of a field, or of a variable of another package. -/
def selectorType? (scope : Scope) (expression : Tree) : Option TypeRef := do
  let operand ← expression.part? .operand
  let name := scope.text (← expression.part? .field)
  match scope.packageOperand? operand with
  | some package => known.valueType? scope.context.module (← package.findValue? name)
  | none =>
    let owner ← known.type? scope operand
    let field ← field? scope.context.module owner name
    field.context.resolve? field.type

/-- The type of an expression. -/
def typeOf? (scope : Scope) (expression : Tree) : Option TypeRef :=
  match expression.kind with
  | .identifier => known.nameType? scope (scope.text expression)
  | .compositeLiteral | .typeAssertionExpression | .typeConversionExpression =>
    (expression.part? .type).bind scope.context.resolve?
  | .unaryExpression => known.unaryType? scope expression
  | .parenthesizedExpression => expression.firstNamed?.bind (known.type? scope)
  | .callExpression => (known.callResults scope expression).head?.join
  | .indexExpression =>
    ((expression.part? .operand).bind (known.elements? scope)).bind (·.element)
  | .selectorExpression => known.selectorType? scope expression
  | _ => none

/-- Keys and elements of a name. -/
def nameElements? (scope : Scope) (name : String) : Option Elements :=
  match scope.local? name with
  | some found => found.elements
  | none =>
    (scope.context.package.findValue? name).bind (known.valueElements? scope.context.module)

/-- Keys and elements of a field, or of a variable of another package. -/
def selectorElements? (scope : Scope) (expression : Tree) : Option Elements := do
  let operand ← expression.part? .operand
  let name := scope.text (← expression.part? .field)
  match scope.packageOperand? operand with
  | some package => known.valueElements? scope.context.module (← package.findValue? name)
  | none =>
    let owner ← known.type? scope operand
    let field ← field? scope.context.module owner name
    field.context.elements? field.type

/-- Keys and elements of an expression, read off its form. -/
def directElements? (scope : Scope) (expression : Tree) : Option Elements :=
  match expression.kind with
  | .identifier => known.nameElements? scope (scope.text expression)
  | .compositeLiteral => (expression.part? .type).bind scope.context.elements?
  | .parenthesizedExpression => expression.firstNamed?.bind (known.elements? scope)
  | .sliceExpression => (expression.part? .operand).bind (known.elements? scope)
  | .callExpression => known.callElements? scope expression 0
  | .selectorExpression => known.selectorElements? scope expression
  | _ => none

/-- Keys and elements of an expression, read off its form or else off its
type. -/
def elementsOf? (scope : Scope) (expression : Tree) : Option Elements :=
  (known.directElements? scope expression).or
    ((known.type? scope expression).bind (collection? scope.context.module))

/-- What can be told one step further. -/
def next : Knowledge := ⟨known.typeOf?, known.elementsOf?⟩

/-- What can be told in so many steps. -/
def within : (budget : Nat) → Knowledge
  | 0 => nothing
  | budget + 1 => (within budget).next

end Knowledge

/-- How many steps inference takes for one expression. -/
def inferenceBudget : Nat := 8

/-- What inference tells. -/
def inferred : Knowledge := Knowledge.within inferenceBudget

namespace Scope

/-- The type of an expression. -/
def infer? (scope : Scope) (expression : Tree) : Option TypeRef := inferred.type? scope expression

/-- Keys and elements of an expression. -/
def inferElements? (scope : Scope) (expression : Tree) : Option Elements :=
  inferred.elements? scope expression

end Scope

end Assay.Typing
