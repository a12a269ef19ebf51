/-
The variables of a function: its receiver, parameters and named results, and
everything its body declares, in the order of the source.
-/
import Assay.Typing.Inference

namespace Assay.Typing

open Assay.Syntax Assay.Source

namespace Scope

-- =========================================================== parameters

/-- What a parameter's declaration says of it. The last parameter of a variadic
function is a slice. -/
def parameterLocal (context : Context) (parameter : Tree) : Local :=
  match parameter.kind, parameter.part? .type with
  | .parameterDeclaration, some type => ⟨context.resolve? type, context.elements? type⟩
  | .variadicParameterDeclaration, some type => ⟨none, some ⟨none, context.resolve? type⟩⟩
  | _, _ => .unknown

/-- Declares names that share what is known of them. -/
def insertAll (scope : Scope) (names : List Tree) (about : Local) : Scope :=
  names.foldl (fun scope name => scope.insert (scope.text name) about) scope

/-- Declares the parameters of a list. -/
def declareParameters (scope : Scope) (list : Tree) : Scope :=
  list.namedChildren.foldl (fun scope parameter =>
    scope.insertAll (parameter.parts .name) (parameterLocal scope.context parameter)) scope

-- ========================================================== assignments

/-- What is known of an expression's value. -/
def valueLocal (scope : Scope) (value : Tree) : Local :=
  ⟨scope.infer? value, scope.inferElements? value⟩

/-- What is known of `count` variables that take these values: one value each,
or the results of one call. The first of two may also take an element or an
assertion's value, with the second telling whether there is one. -/
def assigned (scope : Scope) (values : List Tree) (count : Nat) : List Local :=
  if values.length = count then values.map scope.valueLocal
  else match values with
    | [single] =>
      if single.kind = .callExpression then
        let types := inferred.callResults scope single
        (List.range count).map fun index =>
          ⟨(types[index]?).join, inferred.callElements? scope single index⟩
      else if single.kind = .indexExpression || single.kind = .typeAssertionExpression then
        [scope.valueLocal single]
      else []
    | _ => []

/-- Declares names with what is known of each; nothing is known of those beyond
the list. -/
def insertEach (scope : Scope) : (names : List Tree) → (known : List Local) → Scope
  | [], _ => scope
  | name :: names, [] => (scope.insert (scope.text name) .unknown).insertEach names []
  | name :: names, about :: known =>
    (scope.insert (scope.text name) about).insertEach names known

-- ========================================================= declarations

/-- The nodes that declare variables in a body. -/
def declares : Kind → Bool
  | .shortVarDeclaration | .varSpec | .constSpec | .rangeClause | .funcLiteral
  | .typeSwitchStatement => true
  | _ => false

/-- The nodes of a list that plays a role. -/
def listed (node : Tree) (role : Role) : List Tree :=
  ((node.part? role).map (·.namedChildren)).getD []

/-- Declares the names among the targets of `:=`. -/
def declareShort (scope : Scope) (node : Tree) : Scope :=
  let targets := listed node .left
  let known := scope.assigned (listed node .right) targets.length
  (targets.zipIdx.filter (·.1.kind == .identifier)).foldl (fun scope (target, index) =>
    scope.insert (scope.text target) (known[index]?.getD .unknown)) scope

/-- Declares the names of a specification. -/
def declareSpec (scope : Scope) (spec : Tree) : Scope :=
  let names := spec.parts .name
  match spec.part? .type, spec.part? .value with
  | some type, _ =>
    scope.insertAll names ⟨scope.context.resolve? type, scope.context.elements? type⟩
  | none, some values => scope.insertEach names (scope.assigned values.namedChildren names.length)
  | none, none => scope.insertEach names []

/-- Declares the variables of a loop over a collection: its keys, then its
elements. -/
def declareRange (scope : Scope) (clause : Tree) : Scope :=
  match clause.part? .operator, clause.part? .left with
  | some operator, some targets =>
    if scope.text operator == ":=" then
      let ranged := (clause.part? .right).bind scope.inferElements?
      scope.insertEach targets.namedChildren
        [⟨ranged.bind (·.key), none⟩, ⟨ranged.bind (·.element), none⟩]
    else scope
  | _, _ => scope

/-- Declares what a node declares. -/
def declare (scope : Scope) (node : Tree) : Scope :=
  match node.kind with
  | .shortVarDeclaration => scope.declareShort node
  | .varSpec | .constSpec => scope.declareSpec node
  | .rangeClause => scope.declareRange node
  | .funcLiteral => match node.part? .parameters with
    | some list => scope.declareParameters list
    | none => scope
  | .typeSwitchStatement => scope.insertEach (listed node .guard) []
  | _ => scope

/-- The scope of a function or a method. -/
def ofFunction (context : Context) (function : Tree) : Scope :=
  let lists := [Role.receiver, .parameters, .result].filterMap fun role =>
    (function.part? role).filter (·.kind == .parameterList)
  let scope := lists.foldl declareParameters (ofContext context)
  match function.part? .body with
  | none => scope
  | some body => (body.preorder.filter (declares ·.kind)).foldl declare scope

end Scope

end Assay.Typing
