/-
What is told of types and expressions in a module without its test files: the
same as in the module. Every question comes down to lookups in packages, which
ask no test files; what is left is to carry that through the recursions over
type expressions, through the search for members and through the steps of
inference.
-/
import Assay.Proofs.Source.Bare
import Assay.Typing.Scope

namespace Assay.Typing

open Assay.Syntax Assay.Source

variable (module : Module) (package : Package) (context : Context) (name : String)

-- ============================================================== contexts

/-- The context without test files around it. -/
def Context.bare : Context where
  module := context.module.bare
  package := context.package.bare
  file := context.file

namespace Context

@[simp]
theorem module_bare : context.bare.module = context.module.bare := rfl

@[simp]
theorem package_bare : context.bare.package = context.package.bare := rfl

@[simp]
theorem file_bare : context.bare.file = context.file := rfl

@[simp]
theorem text_bare (node : Tree) : context.bare.text node = context.text node := rfl

@[simp]
theorem ofFile?_bare (file : File) :
    ofFile? module.bare file = (ofFile? module file).map bare := by
  unfold ofFile?
  rw [Module.packageOf?_bare, Option.map_map, Option.map_map]
  rfl

@[simp]
theorem declared?_bare : declared? package.bare name = declared? package name := by
  rw [declared?, Package.declaresType_bare, Package.id_bare, declared?]

@[simp]
theorem qualified?_bare (children : List Tree) :
    context.bare.qualified? children = context.qualified? children := by
  simp only [qualified?, module_bare, file_bare, text_bare, Module.imported?_bare,
    Option.bind_eq_bind, Option.bind_map, Function.comp_def, declared?_bare]

mutual

theorem resolve?_bare_apply : ∀ tree : Tree, context.bare.resolve? tree = context.resolve? tree
  | .node label children => by
    rw [resolve?, resolve?, qualified?_bare, resolveFirst?_bare children,
      resolveGeneric?_bare children, package_bare, declared?_bare, text_bare]

theorem resolveFirst?_bare : ∀ trees : List Tree,
    context.bare.resolveFirst? trees = context.resolveFirst? trees
  | [] => by rw [resolveFirst?, resolveFirst?]
  | tree :: trees => by
    rw [resolveFirst?, resolveFirst?, resolve?_bare_apply tree, resolveFirst?_bare trees]

theorem resolveGeneric?_bare : ∀ trees : List Tree,
    context.bare.resolveGeneric? trees = context.resolveGeneric? trees
  | [] => by rw [resolveGeneric?, resolveGeneric?]
  | tree :: trees => by
    rw [resolveGeneric?, resolveGeneric?, resolve?_bare_apply tree, resolveGeneric?_bare trees]

end

@[simp]
theorem resolve?_bare : context.bare.resolve? = context.resolve? :=
  funext (resolve?_bare_apply context)

@[simp]
theorem resolvePart?_bare (children : List Tree) (role : Role) :
    context.bare.resolvePart? children role = context.resolvePart? children role := by
  rw [resolvePart?, resolve?_bare, resolvePart?]

mutual

@[simp]
theorem elementsBy?_bare (named? : TypeRef → Option Elements) : ∀ tree : Tree,
    context.bare.elementsBy? named? tree = context.elementsBy? named? tree
  | .node label children => by
    rw [elementsBy?, elementsBy?, elementsOfFirst?_bare named? children, resolve?_bare]
    simp only [resolvePart?_bare]

theorem elementsOfFirst?_bare (named? : TypeRef → Option Elements) : ∀ trees : List Tree,
    context.bare.elementsOfFirst? named? trees = context.elementsOfFirst? named? trees
  | [] => by rw [elementsOfFirst?, elementsOfFirst?]
  | tree :: trees => by
    rw [elementsOfFirst?, elementsOfFirst?, elementsBy?_bare named? tree,
      elementsOfFirst?_bare named? trees]

end

end Context

-- ================================================================= types

@[simp]
theorem typeSpec?_bare (type : TypeRef) : typeSpec? module.bare type
    = (typeSpec? module type).map fun (package, spec) => (package.bare, spec) := by
  unfold typeSpec?
  cases hfound : module.package? type.package with
  | none => simp [hfound]
  | some found => simp [hfound, Function.comp_def]

theorem namedElements?_bare (hops : Nat) :
    namedElements? module.bare hops = namedElements? module hops := by
  induction hops with
  | zero => rfl
  | succ hops ih =>
      funext type
      rw [namedElements?, namedElements?, ih]
      simp only [typeSpec?_bare, Context.ofFile?_bare, Option.bind_eq_bind, Option.bind_map,
        Function.comp_def, Context.elementsBy?_bare]

@[simp]
theorem collection?_bare : collection? module.bare = collection? module := by
  funext type
  rw [collection?, namedElements?_bare, collection?]

@[simp]
theorem Context.elements?_bare : context.bare.elements? = context.elements? := by
  funext node
  rw [elements?, elementsBy?_bare, module_bare, collection?_bare, elements?]

-- =============================================================== members

@[simp]
theorem typeNames_bare : typeNames package.bare = typeNames package := by
  rw [typeNames, Package.topLevel_bare, typeNames]

@[simp]
theorem typeKeys_bare : typeKeys module.bare = typeKeys module := by
  simp [typeKeys, List.flatMap_map]

@[simp]
theorem resolveAll_bare (spec : Declaration) (nodes : List Tree) :
    resolveAll module.bare spec nodes = resolveAll module spec nodes := by
  unfold resolveAll
  rw [Context.ofFile?_bare]
  cases Context.ofFile? module spec.file with
  | none => rfl
  | some context => simp

/-- A search among bare packages takes the steps of the search, if what is found
in a bare package is what is found in the package. -/
theorem search_bare {α β : Type} {found? : TypeRef → Package → Declaration → Option α}
    {foundBare? : TypeRef → Package → Declaration → Option β} {bare : α → β}
    (hfound : ∀ owner package spec,
      foundBare? owner package.bare spec = (found? owner package spec).map bare)
    (embedded : Declaration → List Tree) (fresh : List TypeKey) (pending : List TypeRef) :
    search module.bare foundBare? embedded fresh pending
      = (search module found? embedded fresh pending).map bare := by
  unfold search
  generalize fresh.length = entries
  induction entries generalizing fresh pending with
  | zero => rfl
  | succ entries ih =>
      rw [searchWithin, searchWithin]
      split
      · rfl
      · next owner pending _ =>
          rw [typeSpec?_bare]
          cases typeSpec? module owner with
          | none => exact ih _ _
          | some declared =>
              obtain ⟨package, spec⟩ := declared
              simp only [Option.map_some, hfound, resolveAll_bare]
              cases found? owner package spec with
              | none => exact ih _ _
              | some answer => rfl

/-- The method with its package bare. -/
def Method.bare : Method → Method
  | concrete package declaration receiver => concrete package.bare declaration receiver
  | interface package spec declaration => interface package.bare spec declaration

/-- The field with its context bare. -/
def Field.bare (field : Field) : Field := ⟨field.context.bare, field.type⟩

@[simp]
theorem Method.declaration_bare (method : Method) :
    method.bare.declaration = method.declaration := by
  cases method <;> rfl

@[simp]
theorem method?_bare (owner : TypeRef) :
    method? module.bare owner name = (method? module owner name).map Method.bare := by
  rw [method?, typeKeys_bare]
  refine search_bare module (fun owner package spec => ?_) _ _ _
  unfold ownMethod?
  split
  · rw [Option.map_map]
    rfl
  · rw [Package.findMethod?_bare, Option.map_map]
    rfl

@[simp]
theorem field?_bare (owner : TypeRef) :
    field? module.bare owner name = (field? module owner name).map Field.bare := by
  rw [field?, typeKeys_bare]
  refine search_bare module (fun owner package spec => ?_) _ _ _
  unfold ownField?
  rw [Context.ofFile?_bare]
  cases Context.ofFile? module spec.file with
  | none => rfl
  | some context => cases structField? spec name <;> simp [Field.bare]

-- ============================================================= inference

/-- The scope without test files around it. -/
def Scope.bare (scope : Scope) : Scope := ⟨scope.context.bare, scope.locals⟩

namespace Scope

variable (scope : Scope)

@[simp]
theorem context_bare : scope.bare.context = scope.context.bare := rfl

@[simp]
theorem local?_bare : scope.bare.local? name = scope.local? name := rfl

@[simp]
theorem isLocal_bare : scope.bare.isLocal name = scope.isLocal name := rfl

@[simp]
theorem localType?_bare : scope.bare.localType? name = scope.localType? name := rfl

@[simp]
theorem text_bare (node : Tree) : scope.bare.text node = scope.text node := rfl

@[simp]
theorem ofContext_bare : ofContext context.bare = (ofContext context).bare := rfl

@[simp]
theorem packageOperand?_bare (operand : Tree) :
    scope.bare.packageOperand? operand = (scope.packageOperand? operand).map Package.bare := by
  unfold packageOperand?
  rw [isLocal_bare, text_bare, context_bare, Context.module_bare, Context.file_bare,
    Module.imported?_bare]
  split <;> rfl

@[simp]
theorem isPackageName_bare : scope.bare.isPackageName name = scope.isPackageName name := by
  simp [isPackageName]

end Scope

@[simp]
theorem packageCallee?_bare : packageCallee? package.bare name = packageCallee? package name := by
  rw [packageCallee?, Package.findFunction?_bare, Context.declared?_bare, packageCallee?]

@[simp]
theorem resultRefs_bare (function : Declaration) :
    resultRefs module.bare function = resultRefs module function := by
  unfold resultRefs
  rw [Context.ofFile?_bare]
  cases Context.ofFile? module function.file with
  | none => rfl
  | some context => simp

namespace Knowledge

/-- What is told does not depend on test files. -/
structure Blind (known : Knowledge) : Prop where
  type? : ∀ scope, known.type? scope.bare = known.type? scope
  elements? : ∀ scope, known.elements? scope.bare = known.elements? scope

variable {known : Knowledge} (blind : known.Blind) (scope : Scope) (tree : Tree)

theorem namedCallee?_bare : namedCallee? scope.bare name = namedCallee? scope name := by
  simp [namedCallee?]

include blind

theorem callee?_bare : known.callee? scope.bare tree = known.callee? scope tree := by
  unfold callee?
  refine Option.bind_congr fun function _ => ?_
  split
  · simp [namedCallee?_bare]
  · refine Option.bind_congr fun operand _ => Option.bind_congr fun field _ => ?_
    rw [Scope.packageOperand?_bare, blind.type?]
    cases scope.packageOperand? operand with
    | none => simp [Function.comp_def]
    | some package => simp
  · simp [namedCallee?_bare]
  · rfl

theorem callResults_bare : known.callResults scope.bare tree = known.callResults scope tree := by
  simp [callResults, callee?_bare blind]

theorem callElements?_bare (index : Nat) :
    known.callElements? scope.bare tree index = known.callElements? scope tree index := by
  unfold callElements?
  rw [callee?_bare blind]
  refine Option.bind_congr fun callee _ => ?_
  cases callee with
  | function declaration =>
      simp only [Scope.context_bare, Context.module_bare, Context.ofFile?_bare,
        Option.bind_eq_bind, Option.bind_map, Function.comp_def, Context.elements?_bare]
  | conversion type => simp

theorem valueType?_bare : known.valueType? module.bare = known.valueType? module := by
  funext spec
  unfold valueType?
  rw [Context.ofFile?_bare]
  cases Context.ofFile? module spec.declaration.file with
  | none => rfl
  | some context =>
      simp only [Option.map_some, Option.bind_eq_bind, Option.bind_some, Context.resolve?_bare,
        blind.type?, Scope.ofContext_bare, callResults_bare blind]

theorem valueElements?_bare : known.valueElements? module.bare = known.valueElements? module := by
  funext spec
  unfold valueElements?
  rw [Context.ofFile?_bare]
  cases Context.ofFile? module spec.declaration.file with
  | none => rfl
  | some context =>
      simp only [Option.map_some, Option.bind_eq_bind, Option.bind_some, Context.elements?_bare,
        blind.elements?, Scope.ofContext_bare, callElements?_bare blind]

theorem selectorType?_bare :
    known.selectorType? scope.bare tree = known.selectorType? scope tree := by
  unfold selectorType?
  refine Option.bind_congr fun operand _ => Option.bind_congr fun field _ => ?_
  rw [Scope.packageOperand?_bare, blind.type?]
  cases scope.packageOperand? operand with
  | none => simp [Option.bind_map, Function.comp_def, Field.bare]
  | some package => simp [valueType?_bare _ blind]

theorem selectorElements?_bare :
    known.selectorElements? scope.bare tree = known.selectorElements? scope tree := by
  unfold selectorElements?
  refine Option.bind_congr fun operand _ => Option.bind_congr fun field _ => ?_
  rw [Scope.packageOperand?_bare, blind.type?]
  cases scope.packageOperand? operand with
  | none => simp [Option.bind_map, Function.comp_def, Field.bare]
  | some package => simp [valueElements?_bare _ blind]

theorem typeOf?_bare : known.typeOf? scope.bare = known.typeOf? scope := by
  funext tree
  simp [typeOf?, nameType?, unaryType?, blind.type?, blind.elements?, valueType?_bare _ blind,
    callResults_bare blind, selectorType?_bare blind]

theorem elementsOf?_bare : known.elementsOf? scope.bare = known.elementsOf? scope := by
  funext tree
  simp [elementsOf?, directElements?, nameElements?, blind.type?, blind.elements?,
    valueElements?_bare _ blind, callElements?_bare blind, selectorElements?_bare blind]

/-- One step further, nothing more depends on test files. -/
theorem Blind.next : known.next.Blind :=
  ⟨typeOf?_bare blind, elementsOf?_bare blind⟩

omit blind

theorem blind_within (budget : Nat) : (within budget).Blind := by
  induction budget with
  | zero => exact ⟨fun _ => rfl, fun _ => rfl⟩
  | succ budget ih => exact ih.next

theorem blind_inferred : inferred.Blind := blind_within inferenceBudget

end Knowledge

-- ================================================================ scopes

namespace Scope

variable (scope : Scope) (node : Tree)

@[simp]
theorem infer?_bare : scope.bare.infer? = scope.infer? :=
  Knowledge.blind_inferred.type? scope

@[simp]
theorem inferElements?_bare : scope.bare.inferElements? = scope.inferElements? :=
  Knowledge.blind_inferred.elements? scope

@[simp]
theorem insert_bare (about : Local) :
    scope.bare.insert name about = (scope.insert name about).bare := by
  unfold insert
  split <;> rfl

@[simp]
theorem parameterLocal_bare (parameter : Tree) :
    parameterLocal context.bare parameter = parameterLocal context parameter := by
  simp [parameterLocal]

@[simp]
theorem valueLocal_bare : scope.bare.valueLocal = scope.valueLocal := by
  funext node
  simp [valueLocal]

/-- Declaring one after the other keeps to bare scopes if each step does. -/
theorem foldl_bare {α : Type} {step : Scope → α → Scope}
    (hstep : ∀ scope item, step scope.bare item = (step scope item).bare) (items : List α) :
    items.foldl step scope.bare = (items.foldl step scope).bare := by
  induction items generalizing scope with
  | nil => rfl
  | cons item items ih => rw [List.foldl_cons, hstep, ih, List.foldl_cons]

@[simp]
theorem insertAll_bare (names : List Tree) (about : Local) :
    scope.bare.insertAll names about = (scope.insertAll names about).bare :=
  foldl_bare scope (fun scope name => by simp) names

@[simp]
theorem insertEach_bare (names : List Tree) (known : List Local) :
    scope.bare.insertEach names known = (scope.insertEach names known).bare := by
  induction names generalizing scope known with
  | nil => cases known <;> rfl
  | cons name names ih => cases known <;> simp [insertEach, ih]

@[simp]
theorem declareParameters_bare (list : Tree) :
    scope.bare.declareParameters list = (scope.declareParameters list).bare :=
  foldl_bare scope (fun scope parameter => by simp) list.namedChildren

@[simp]
theorem assigned_bare (values : List Tree) (count : Nat) :
    scope.bare.assigned values count = scope.assigned values count := by
  unfold assigned
  rw [valueLocal_bare]
  simp only [Knowledge.callResults_bare Knowledge.blind_inferred,
    Knowledge.callElements?_bare Knowledge.blind_inferred]

@[simp]
theorem declareShort_bare : scope.bare.declareShort node = (scope.declareShort node).bare := by
  unfold declareShort
  dsimp only
  rw [assigned_bare]
  exact foldl_bare scope (fun scope target => by simp) _

@[simp]
theorem declareSpec_bare : scope.bare.declareSpec node = (scope.declareSpec node).bare := by
  unfold declareSpec
  split <;> simp [*]

@[simp]
theorem declareRange_bare : scope.bare.declareRange node = (scope.declareRange node).bare := by
  unfold declareRange
  rw [inferElements?_bare]
  split
  · rw [text_bare]
    split
    · exact insertEach_bare scope _ _
    · rfl
  · rfl

theorem declare_bare : scope.bare.declare node = (scope.declare node).bare := by
  unfold declare
  split
  case h_5 => split <;> simp
  all_goals simp

@[simp]
theorem ofFunction_bare (function : Tree) :
    ofFunction context.bare function = (ofFunction context function).bare := by
  unfold ofFunction
  dsimp only
  rw [ofContext_bare, foldl_bare _ fun scope list => declareParameters_bare scope list]
  split
  · rfl
  · exact foldl_bare _ declare_bare _

end Scope

end Assay.Typing
