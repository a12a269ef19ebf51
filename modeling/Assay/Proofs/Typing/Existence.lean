/-
The types that are told of exist. A type is named in few places: where a type
expression denotes it, and where a call converts to it, and both look the type
up in its package first. Everything else hands on what it was given: pointers,
members found through embedding in other packages, results of calls, variables
with what is known of them.

So the invariant is one of scopes, that of each variable only such types are
known, and one of what can be told, that in such scopes only such types are
told. Declaring a variable keeps the first if the second holds, and a step of
inference keeps the second.
-/
import Assay.Proofs.Source.Packages
import Assay.Proofs.Typing.Declared

namespace Assay.Typing

open Assay.Syntax Assay.Source

variable {module : Module} {package : Package} {context : Context} {disk : Disk}
  {root name : String} {type : TypeRef} {elements : Elements}

-- ========================================================= what exists

/-- Packages are found under their import paths. -/
def Indexed (module : Module) : Prop :=
  ∀ package ∈ module.allPackages, module.package? package.id = some package

/-- In a loaded module ids are distinct, so a package is found under its own and no
other is. -/
theorem indexed_of_load (hdisk : disk.WellFormed) (hload : load disk root = .ok module) :
    Indexed module :=
  fun _ hpackage => (lookups_of_load hdisk hload hpackage).1

/-- The type is declared in a loaded package, in a file without tests, and its
declaration is found. -/
def TypeRef.Exists (module : Module) (type : TypeRef) : Prop :=
  ∃ package ∈ module.allPackages, package.id = type.package
    ∧ ∃ file ∈ package.files, file.isTest = false
      ∧ ∃ spec ∈ file.typeSpecs, spec.name? = some type.name
        ∧ typeSpec? module type = some (package, spec)

/-- The types exist of which keys and elements are. -/
structure Elements.Exist (module : Module) (elements : Elements) : Prop where
  key : ∀ type, elements.key = some type → type.Exists module
  element : ∀ type, elements.element = some type → type.Exists module

/-- What is known of the variable exists. -/
structure Local.Exists (module : Module) (about : Local) : Prop where
  type : ∀ type, about.type = some type → type.Exists module
  elements : ∀ elements, about.elements = some elements → elements.Exist module

/-- What is known of the variable is a type at most, one that exists. -/
theorem Local.Exists.ofType {type? : Option TypeRef}
    (hexists : ∀ type, type? = some type → type.Exists module) :
    Local.Exists module ⟨type?, none⟩ :=
  ⟨hexists, nofun⟩

theorem Local.Exists.unknown : Local.unknown.Exists module := .ofType nofun

/-- A pointer to a type exists if the type does. -/
theorem TypeRef.Exists.withPointer (hexists : type.Exists module) (pointer : Bool) :
    TypeRef.Exists module { type with pointer } :=
  hexists

/-- The context is one of the module's. -/
structure Context.Within (module : Module) (context : Context) : Prop where
  module_eq : context.module = module
  loaded : context.package ∈ module.allPackages

/-- The context of a file belongs to the module in which the file is looked up. -/
theorem Context.within_of_ofFile? {file : File} (hcontext : ofFile? module file = some context) :
    context.Within module := by
  obtain ⟨package, hpackage, rfl⟩ := Option.map_eq_some_iff.mp hcontext
  exact ⟨rfl, mem_allPackages_of_packageOf? hpackage⟩

-- ======================================================== type expressions

namespace Context

/-- A name denotes a type only if the package declares one, so here a type comes into
being together with its declaration. -/
theorem exists_of_declared? (hindexed : Indexed module) (hpackage : package ∈ module.allPackages)
    (hdeclared : declared? package name = some type) : type.Exists module := by
  obtain ⟨hdeclares, htype⟩ := Option.ite_none_right_eq_some.mp hdeclared
  obtain rfl := Option.some.inj htype
  obtain ⟨spec, hspec⟩ := Option.isSome_iff_exists.mp hdeclares
  obtain ⟨file, hsource, hplaced, hname⟩ := findType?_some hspec
  obtain ⟨hfile, htest⟩ := List.mem_filter.mp hsource
  refine ⟨package, hpackage, rfl, file, hfile, by simpa using htest, spec, hplaced, hname, ?_⟩
  simp [typeSpec?, hindexed package hpackage, hspec]

/-- So it is with a name behind a package: the package is one that the file imports. -/
theorem exists_of_qualified? (hindexed : Indexed module) (hwithin : context.Within module)
    {children : List Tree}
    (hqualified : context.qualified? children = some type) : type.Exists module := by
  obtain ⟨front, -, hrest⟩ := Option.bind_eq_some_iff.mp hqualified
  obtain ⟨word, -, hrest⟩ := Option.bind_eq_some_iff.mp hrest
  obtain ⟨imported, himported, hdeclared⟩ := Option.bind_eq_some_iff.mp hrest
  rw [hwithin.module_eq] at himported
  exact exists_of_declared? hindexed (mem_allPackages_of_imported? himported) hdeclared

mutual

/-- What a type expression denotes is one of the names in it, behind pointers,
parentheses and type arguments. -/
theorem exists_of_resolve? (hindexed : Indexed module) (hwithin : context.Within module) :
    ∀ (tree : Tree) {type : TypeRef}, context.resolve? tree = some type → type.Exists module
  | .node label children, type, hresolve => by
    rw [resolve?] at hresolve
    split at hresolve
    · exact exists_of_declared? hindexed hwithin.loaded hresolve
    · exact exists_of_qualified? hindexed hwithin hresolve
    · obtain ⟨pointed, hpointed, rfl⟩ := Option.map_eq_some_iff.mp hresolve
      exact (exists_of_resolveFirst? hindexed hwithin children hpointed).withPointer true
    · exact exists_of_resolveGeneric? hindexed hwithin children hresolve
    · exact exists_of_resolveFirst? hindexed hwithin children hresolve
    · cases hresolve

theorem exists_of_resolveFirst? (hindexed : Indexed module) (hwithin : context.Within module) :
    ∀ (trees : List Tree) {type : TypeRef},
      context.resolveFirst? trees = some type → type.Exists module
  | [], _, hresolve => by
    rw [resolveFirst?] at hresolve
    cases hresolve
  | tree :: trees, _, hresolve => by
    rw [resolveFirst?] at hresolve
    split at hresolve
    · exact exists_of_resolve? hindexed hwithin tree hresolve
    · exact exists_of_resolveFirst? hindexed hwithin trees hresolve

/-- Of a generic type, what stands before its arguments is denoted. -/
theorem exists_of_resolveGeneric? (hindexed : Indexed module) (hwithin : context.Within module) :
    ∀ (trees : List Tree) {type : TypeRef},
      context.resolveGeneric? trees = some type → type.Exists module
  | [], _, hresolve => by
    rw [resolveGeneric?] at hresolve
    cases hresolve
  | tree :: trees, _, hresolve => by
    rw [resolveGeneric?] at hresolve
    split at hresolve
    · exact exists_of_resolve? hindexed hwithin tree hresolve
    · exact exists_of_resolveGeneric? hindexed hwithin trees hresolve

end

theorem exists_of_resolvePart? (hindexed : Indexed module) (hwithin : context.Within module)
    {children : List Tree} {role : Role}
    (hresolve : context.resolvePart? children role = some type) : type.Exists module := by
  obtain ⟨part, -, hpart⟩ := Option.bind_eq_some_iff.mp hresolve
  exact exists_of_resolve? hindexed hwithin part hpart

mutual

/-- What is told of a collection exists if what is told of declared types does. -/
theorem exist_of_elementsBy? {named? : TypeRef → Option Elements} (hindexed : Indexed module)
    (hwithin : context.Within module)
    (hnamed : ∀ type elements, named? type = some elements → elements.Exist module) :
    ∀ (tree : Tree) {elements : Elements},
      context.elementsBy? named? tree = some elements → elements.Exist module
  | .node label children, elements, helements => by
    have hpart (role : Role) (type : TypeRef)
        (hresolve : context.resolvePart? children role = some type) : type.Exists module :=
      exists_of_resolvePart? hindexed hwithin hresolve
    rw [elementsBy?] at helements
    split at helements
    case h_1 | h_2 | h_3 =>
      obtain rfl := Option.some.inj helements
      exact ⟨nofun, hpart .element⟩
    case h_4 =>
      obtain rfl := Option.some.inj helements
      exact ⟨hpart .key, hpart .value⟩
    case h_5 | h_6 => exact exist_of_elementsOfFirst? hindexed hwithin hnamed children helements
    case h_7 | h_8 | h_9 =>
      obtain ⟨type, -, helements⟩ := Option.bind_eq_some_iff.mp helements
      exact hnamed type elements helements
    case h_10 => cases helements

theorem exist_of_elementsOfFirst? {named? : TypeRef → Option Elements} (hindexed : Indexed module)
    (hwithin : context.Within module)
    (hnamed : ∀ type elements, named? type = some elements → elements.Exist module) :
    ∀ (trees : List Tree) {elements : Elements},
      context.elementsOfFirst? named? trees = some elements → elements.Exist module
  | [], _, helements => by
    rw [elementsOfFirst?] at helements
    cases helements
  | tree :: trees, _, helements => by
    rw [elementsOfFirst?] at helements
    split at helements
    · exact exist_of_elementsBy? hindexed hwithin hnamed tree helements
    · exact exist_of_elementsOfFirst? hindexed hwithin hnamed trees helements

end

end Context

/-- A collection that is reached through declared types has the types of its own
file, whatever file asks. -/
theorem exist_of_namedElements? (hindexed : Indexed module) {hops : Nat}
    (helements : namedElements? module hops type = some elements) : elements.Exist module := by
  induction hops generalizing type elements with
  | zero => cases helements
  | succ hops ih =>
      obtain ⟨⟨package, spec⟩, -, hrest⟩ := Option.bind_eq_some_iff.mp helements
      obtain ⟨underlying, -, hrest⟩ := Option.bind_eq_some_iff.mp hrest
      obtain ⟨context, hcontext, hrest⟩ := Option.bind_eq_some_iff.mp hrest
      exact Context.exist_of_elementsBy? hindexed (Context.within_of_ofFile? hcontext)
        (fun _ _ => ih) underlying hrest

theorem Context.exist_of_elements? (hindexed : Indexed module) (hwithin : context.Within module)
    {node : Tree} (helements : context.elements? node = some elements) : elements.Exist module := by
  rw [Context.elements?, hwithin.module_eq] at helements
  exact exist_of_elementsBy? hindexed hwithin (fun _ _ => exist_of_namedElements? hindexed) node
    helements

-- ============================================================= inference

/-- What is known in the scope exists. -/
structure Scope.Sound (module : Module) (scope : Scope) : Prop where
  within : scope.context.Within module
  locals : ∀ entry ∈ scope.locals, entry.2.Exists module

theorem Scope.Sound.ofContext (hwithin : context.Within module) :
    (Scope.ofContext context).Sound module :=
  ⟨hwithin, nofun⟩

/-- What is looked up of a variable was known of it when it was declared. -/
theorem Scope.Sound.local? {scope : Scope} (hsound : scope.Sound module) {about : Local}
    (hlocal : scope.local? name = some about) : about.Exists module := by
  obtain ⟨entry, hentry, rfl⟩ := Option.map_eq_some_iff.mp hlocal
  exact hsound.locals entry (List.mem_of_find?_eq_some hentry)

/-- The type exists that a call converts to. -/
def Callee.Exists (module : Module) : Callee → Prop
  | .function _ => True
  | .conversion type => type.Exists module

namespace Knowledge

/-- What is told exists, in scopes where what is known does. -/
structure Sound (module : Module) (known : Knowledge) : Prop where
  type? : ∀ {scope : Scope} {expression : Tree} {type : TypeRef}, scope.Sound module →
    known.type? scope expression = some type → type.Exists module
  elements? : ∀ {scope : Scope} {expression : Tree} {elements : Elements}, scope.Sound module →
    known.elements? scope expression = some elements → elements.Exist module

variable {known : Knowledge} {scope : Scope} {tree : Tree} {callee : Callee}

/-- A name is called as a function if the package has one, and else is a conversion, to
a type that the package declares. -/
theorem exists_of_packageCallee? (hindexed : Indexed module)
    (hpackage : package ∈ module.allPackages)
    (hcallee : packageCallee? package name = some callee) : callee.Exists module := by
  unfold packageCallee? at hcallee
  split at hcallee
  · obtain rfl := Option.some.inj hcallee
    trivial
  · obtain ⟨type, htype, rfl⟩ := Option.map_eq_some_iff.mp hcallee
    exact Context.exists_of_declared? hindexed hpackage htype

/-- The package before a selector's dot is an import of the file, unless a variable
hides it. -/
theorem loaded_of_packageOperand? (hscope : scope.Sound module)
    (hpackage : scope.packageOperand? tree = some package) : package ∈ module.allPackages := by
  obtain ⟨-, himported⟩ := Option.ite_none_right_eq_some.mp hpackage
  rw [hscope.within.module_eq] at himported
  exact mem_allPackages_of_imported? himported

section

variable (hindexed : Indexed module)

include hindexed

theorem exists_of_namedCallee? (hscope : scope.Sound module)
    (hcallee : namedCallee? scope name = some callee) : callee.Exists module :=
  exists_of_packageCallee? hindexed hscope.within.loaded
    (Option.ite_none_left_eq_some.mp hcallee).2

/-- A conversion is to a type of this package or of an imported one; what is called on a
value is a method and no conversion. -/
theorem exists_of_callee? (hscope : scope.Sound module)
    (hcallee : known.callee? scope tree = some callee) : callee.Exists module := by
  obtain ⟨function, -, hrest⟩ := Option.bind_eq_some_iff.mp hcallee
  split at hrest
  · exact exists_of_namedCallee? hindexed hscope hrest
  · obtain ⟨operand, -, hrest⟩ := Option.bind_eq_some_iff.mp hrest
    obtain ⟨field, -, hrest⟩ := Option.bind_eq_some_iff.mp hrest
    split at hrest
    · next hpackage =>
        exact exists_of_packageCallee? hindexed (loaded_of_packageOperand? hscope hpackage) hrest
    · obtain ⟨owner, -, hrest⟩ := Option.bind_eq_some_iff.mp hrest
      obtain ⟨method, -, rfl⟩ := Option.map_eq_some_iff.mp hrest
      trivial
  · obtain ⟨inner, -, hrest⟩ := Option.bind_eq_some_iff.mp hrest
    exact exists_of_namedCallee? hindexed hscope (Option.ite_none_right_eq_some.mp hrest).2
  · cases hrest

/-- The types of a function's results exist, in whatever file it is declared. -/
theorem exists_of_resultRefs {declaration : Declaration}
    (hresult : some type ∈ resultRefs module declaration) : type.Exists module := by
  unfold resultRefs at hresult
  split at hresult
  · cases hresult
  · next context hcontext =>
      obtain ⟨result, -, hresolve⟩ := List.mem_map.mp hresult
      exact Context.exists_of_resolve? hindexed (Context.within_of_ofFile? hcontext) result hresolve

/-- A call has the types of the function's results, read where the function is declared,
or the one type it converts to. -/
theorem exists_of_callResults (hscope : scope.Sound module)
    (hresult : some type ∈ known.callResults scope tree) : type.Exists module := by
  unfold callResults at hresult
  split at hresult
  · rw [hscope.within.module_eq] at hresult
    exact exists_of_resultRefs hindexed hresult
  · next converted hcallee =>
      obtain rfl := Option.some.inj (List.mem_singleton.mp hresult)
      exact exists_of_callee? hindexed hscope hcallee
  · cases hresult

theorem exists_of_callResults_getElem? (hscope : scope.Sound module) {index : Nat}
    (hresult : ((known.callResults scope tree)[index]?).join = some type) :
    type.Exists module :=
  exists_of_callResults hindexed hscope
    (List.mem_of_getElem? (Option.join_eq_some_iff.mp hresult))

/-- Of a result at some place keys and elements are told in the file of the function, or
of the type converted to. -/
theorem exist_of_callElements? (hscope : scope.Sound module) {index : Nat}
    (helements : known.callElements? scope tree index = some elements) : elements.Exist module := by
  obtain ⟨callee, hcallee, hrest⟩ := Option.bind_eq_some_iff.mp helements
  rw [hscope.within.module_eq] at hrest
  cases callee with
  | function declaration =>
      obtain ⟨result, -, hrest⟩ := Option.bind_eq_some_iff.mp hrest
      obtain ⟨context, hcontext, hrest⟩ := Option.bind_eq_some_iff.mp hrest
      exact Context.exist_of_elements? hindexed (Context.within_of_ofFile? hcontext) hrest
  | conversion converted => exact exist_of_namedElements? hindexed hrest

end

/-- What a value is told to be comes from the call or the expression it is. -/
theorem of_ofValue? {α : Type} {spec : ValueSpec} {ofCall ofExpression : Tree → Option α}
    {answer : α} (hvalue : ofValue? spec ofCall ofExpression = some answer) :
    ∃ value, ofCall value = some answer ∨ ofExpression value = some answer := by
  obtain ⟨list, -, hrest⟩ := Option.bind_eq_some_iff.mp hvalue
  dsimp only at hrest
  split at hrest
  · next single _ =>
      split at hrest
      · exact ⟨single, .inl hrest⟩
      · exact ⟨single, .inr hrest⟩
  · obtain ⟨value, -, hrest⟩ := Option.bind_eq_some_iff.mp hrest
    exact ⟨value, .inr hrest⟩

section

variable (hindexed : Indexed module) (hknown : known.Sound module)

include hindexed hknown

/-- A package's variable has the type that its specification states or, without one,
that of its value in the file that declares it. No variable of a function is in scope
there. -/
theorem exists_of_valueType? {spec : ValueSpec}
    (htype : known.valueType? module spec = some type) : type.Exists module := by
  obtain ⟨context, hcontext, hrest⟩ := Option.bind_eq_some_iff.mp htype
  have hwithin := Context.within_of_ofFile? hcontext
  split at hrest
  · exact Context.exists_of_resolve? hindexed hwithin _ hrest
  · obtain ⟨value, hcall | hexpression⟩ := of_ofValue? hrest
    · exact exists_of_callResults_getElem? hindexed (.ofContext hwithin) hcall
    · exact hknown.type? (.ofContext hwithin) hexpression

theorem exist_of_valueElements? {spec : ValueSpec}
    (helements : known.valueElements? module spec = some elements) : elements.Exist module := by
  obtain ⟨context, hcontext, hrest⟩ := Option.bind_eq_some_iff.mp helements
  have hwithin := Context.within_of_ofFile? hcontext
  split at hrest
  · exact Context.exist_of_elements? hindexed hwithin hrest
  · obtain ⟨value, hcall | hexpression⟩ := of_ofValue? hrest
    · exact exist_of_callElements? hindexed (.ofContext hwithin) hcall
    · exact hknown.elements? (.ofContext hwithin) hexpression

variable (hscope : scope.Sound module)

include hscope

/-- A name is a variable of the scope if there is one and else a package's variable. -/
theorem exists_of_nameType? (htype : known.nameType? scope name = some type) :
    type.Exists module := by
  unfold nameType? at htype
  split at htype
  · next hlocal => exact (hscope.local? hlocal).type type htype
  · obtain ⟨spec, -, hvalue⟩ := Option.bind_eq_some_iff.mp htype
    rw [hscope.within.module_eq] at hvalue
    exact exists_of_valueType? hindexed hknown hvalue

theorem exist_of_nameElements? (helements : known.nameElements? scope name = some elements) :
    elements.Exist module := by
  unfold nameElements? at helements
  split at helements
  · next hlocal => exact (hscope.local? hlocal).elements elements helements
  · obtain ⟨spec, -, hvalue⟩ := Option.bind_eq_some_iff.mp helements
    rw [hscope.within.module_eq] at hvalue
    exact exist_of_valueElements? hindexed hknown hvalue

omit hindexed in
/-- Taking an address and following a pointer lead to the same declaration. -/
theorem exists_of_unaryType? (htype : known.unaryType? scope tree = some type) :
    type.Exists module := by
  obtain ⟨operator, -, hrest⟩ := Option.bind_eq_some_iff.mp htype
  obtain ⟨operand, -, hrest⟩ := Option.bind_eq_some_iff.mp hrest
  obtain ⟨inner, hinner, hrest⟩ := Option.bind_eq_some_iff.mp hrest
  have hexists := hknown.type? hscope hinner
  split at hrest
  · obtain rfl := Option.some.inj hrest
    exact hexists.withPointer true
  · split at hrest
    · obtain rfl := Option.some.inj hrest
      exact hexists.withPointer false
    · cases hrest

omit hindexed hknown hscope in
/-- A field's type is read where the field is declared. -/
theorem within_of_field? {owner : TypeRef} {field : Field}
    (hfield : field? module owner name = some field) : field.context.Within module := by
  obtain ⟨declaring, package, spec, -, hoffer⟩ := search_some hfield
  obtain ⟨context, hcontext, hrest⟩ := Option.bind_eq_some_iff.mp hoffer
  obtain ⟨node, -, rfl⟩ := Option.map_eq_some_iff.mp hrest
  exact Context.within_of_ofFile? hcontext

/-- A selector leads to a variable of an imported package, or to a field, whose type is
read where it is declared. -/
theorem exists_of_selectorType? (htype : known.selectorType? scope tree = some type) :
    type.Exists module := by
  obtain ⟨operand, -, hrest⟩ := Option.bind_eq_some_iff.mp htype
  obtain ⟨word, -, hrest⟩ := Option.bind_eq_some_iff.mp hrest
  rw [hscope.within.module_eq] at hrest
  split at hrest
  · obtain ⟨spec, -, hvalue⟩ := Option.bind_eq_some_iff.mp hrest
    exact exists_of_valueType? hindexed hknown hvalue
  · obtain ⟨owner, -, hrest⟩ := Option.bind_eq_some_iff.mp hrest
    obtain ⟨field, hfield, hresolve⟩ := Option.bind_eq_some_iff.mp hrest
    exact Context.exists_of_resolve? hindexed (within_of_field? hfield) _ hresolve

theorem exist_of_selectorElements?
    (helements : known.selectorElements? scope tree = some elements) : elements.Exist module := by
  obtain ⟨operand, -, hrest⟩ := Option.bind_eq_some_iff.mp helements
  obtain ⟨word, -, hrest⟩ := Option.bind_eq_some_iff.mp hrest
  rw [hscope.within.module_eq] at hrest
  split at hrest
  · obtain ⟨spec, -, hvalue⟩ := Option.bind_eq_some_iff.mp hrest
    exact exist_of_valueElements? hindexed hknown hvalue
  · obtain ⟨owner, -, hrest⟩ := Option.bind_eq_some_iff.mp hrest
    obtain ⟨field, hfield, hrest⟩ := Option.bind_eq_some_iff.mp hrest
    exact Context.exist_of_elements? hindexed (within_of_field? hfield) hrest

/-- The cases are the forms of expressions. Each is settled by a lookup, by a type
expression in it, or by what is told already of a smaller part. -/
theorem exists_of_typeOf? (htype : known.typeOf? scope tree = some type) :
    type.Exists module := by
  unfold typeOf? at htype
  split at htype
  case h_1 => exact exists_of_nameType? hindexed hknown hscope htype
  case h_2 | h_3 | h_4 =>
    obtain ⟨node, -, hresolve⟩ := Option.bind_eq_some_iff.mp htype
    exact Context.exists_of_resolve? hindexed hscope.within node hresolve
  case h_5 => exact exists_of_unaryType? hknown hscope htype
  case h_6 =>
    obtain ⟨inner, -, hinner⟩ := Option.bind_eq_some_iff.mp htype
    exact hknown.type? hscope hinner
  case h_7 =>
    rw [List.head?_eq_getElem?] at htype
    exact exists_of_callResults_getElem? hindexed hscope htype
  case h_8 =>
    obtain ⟨elements, hoperand, helement⟩ := Option.bind_eq_some_iff.mp htype
    obtain ⟨operand, -, helements⟩ := Option.bind_eq_some_iff.mp hoperand
    exact (hknown.elements? hscope helements).element type helement
  case h_9 => exact exists_of_selectorType? hindexed hknown hscope htype
  case h_10 => cases htype

theorem exist_of_directElements? (helements : known.directElements? scope tree = some elements) :
    elements.Exist module := by
  unfold directElements? at helements
  split at helements
  case h_1 => exact exist_of_nameElements? hindexed hknown hscope helements
  case h_2 =>
    obtain ⟨node, -, helements⟩ := Option.bind_eq_some_iff.mp helements
    exact Context.exist_of_elements? hindexed hscope.within helements
  case h_3 | h_4 =>
    obtain ⟨inner, -, hinner⟩ := Option.bind_eq_some_iff.mp helements
    exact hknown.elements? hscope hinner
  case h_5 => exact exist_of_callElements? hindexed hscope helements
  case h_6 => exact exist_of_selectorElements? hindexed hknown hscope helements
  case h_7 => cases helements

/-- Where an expression tells nothing of its elements, its type is asked, which exists
and is a declared collection or none. -/
theorem exist_of_elementsOf? (helements : known.elementsOf? scope tree = some elements) :
    elements.Exist module := by
  rcases Option.or_eq_some_iff.mp helements with hdirect | ⟨-, hnamed⟩
  · exact exist_of_directElements? hindexed hknown hscope hdirect
  · obtain ⟨type, -, hcollection⟩ := Option.bind_eq_some_iff.mp hnamed
    rw [hscope.within.module_eq] at hcollection
    exact exist_of_namedElements? hindexed hcollection

end

/-- One step further, what is told exists still. -/
theorem Sound.next (hknown : known.Sound module) (hindexed : Indexed module) :
    known.next.Sound module :=
  ⟨exists_of_typeOf? hindexed hknown, exist_of_elementsOf? hindexed hknown⟩

/-- Without a budget nothing is told, and each unit of it is one step. -/
theorem sound_within (hindexed : Indexed module) (budget : Nat) :
    (within budget).Sound module := by
  induction budget with
  | zero => exact ⟨nofun, nofun⟩
  | succ budget ih => exact ih.next hindexed

theorem sound_inferred (hindexed : Indexed module) : inferred.Sound module :=
  sound_within hindexed inferenceBudget

end Knowledge

-- =============================================================== scopes

namespace Scope.Sound

variable {scope : Scope} {about : Local} {names values : List Tree} {known : List Local}

/-- A variable may be declared in a sound scope when what is known of it exists. An
earlier one of its name stays what it was. -/
theorem insert (hscope : scope.Sound module) (hlocal : about.Exists module) (name : String) :
    (scope.insert name about).Sound module := by
  refine ⟨by rw [context_insert]; exact hscope.within, ?_⟩
  rw [Scope.insert]
  split
  · exact hscope.locals
  · exact List.forall_mem_cons.mpr ⟨hlocal, hscope.locals⟩

/-- Declaring one after the other keeps a scope sound if each step does. -/
theorem foldl {α : Type} {step : Scope → α → Scope}
    (hstep : ∀ scope item, scope.Sound module → (step scope item).Sound module)
    (hscope : scope.Sound module) (items : List α) : (items.foldl step scope).Sound module := by
  induction items generalizing scope with
  | nil => exact hscope
  | cons item items ih => exact ih (hstep scope item hscope)

theorem insertAll (hscope : scope.Sound module) (hlocal : about.Exists module)
    (names : List Tree) : (scope.insertAll names about).Sound module :=
  hscope.foldl (fun _ _ hscope => hscope.insert hlocal _) names

/-- Names that are declared each with something of its own. When there is less known
than there are names, the others are unknown. -/
theorem insertEach (hscope : scope.Sound module) (hknown : ∀ about ∈ known, about.Exists module)
    (names : List Tree) : (scope.insertEach names known).Sound module := by
  induction names generalizing scope known with
  | nil => cases known <;> exact hscope
  | cons name names ih =>
      cases known with
      | nil => exact ih (hscope.insert .unknown _) nofun
      | cons about known =>
          obtain ⟨hlocal, hothers⟩ := List.forall_mem_cons.mp hknown
          exact ih (hscope.insert hlocal _) hothers

section

variable (hindexed : Indexed module)

include hindexed

/-- What a type expression says of a variable exists. -/
theorem exists_ofType (hwithin : context.Within module) (node : Tree) :
    Local.Exists module ⟨context.resolve? node, context.elements? node⟩ :=
  ⟨fun _ => Context.exists_of_resolve? hindexed hwithin node,
    fun _ => Context.exist_of_elements? hindexed hwithin⟩

/-- A parameter is what its type says; one with dots is a collection of that. -/
theorem exists_parameterLocal (hwithin : context.Within module) (parameter : Tree) :
    (parameterLocal context parameter).Exists module := by
  unfold parameterLocal
  split
  · exact exists_ofType hindexed hwithin _
  · refine ⟨nofun, fun elements helements => ?_⟩
    obtain rfl := Option.some.inj helements
    exact ⟨nofun, fun _ => Context.exists_of_resolve? hindexed hwithin _⟩
  · exact .unknown

theorem declareParameters (hscope : scope.Sound module) (list : Tree) :
    (scope.declareParameters list).Sound module :=
  hscope.foldl (fun _ _ hscope =>
    hscope.insertAll (exists_parameterLocal hindexed hscope.within _) _) _

theorem exists_valueLocal (hscope : scope.Sound module) (value : Tree) :
    (scope.valueLocal value).Exists module :=
  ⟨fun _ => (Knowledge.sound_inferred hindexed).type? hscope,
    fun _ => (Knowledge.sound_inferred hindexed).elements? hscope⟩

/-- What is known of assigned variables exists, taken from as many values or from
the results of one call. -/
theorem exists_of_mem_assigned (hscope : scope.Sound module) {count : Nat}
    (hmem : about ∈ scope.assigned values count) : about.Exists module := by
  unfold assigned at hmem
  split at hmem
  · obtain ⟨value, -, rfl⟩ := List.mem_map.mp hmem
    exact exists_valueLocal hindexed hscope value
  · split at hmem
    · next single _ =>
        split at hmem
        · obtain ⟨index, -, rfl⟩ := List.mem_map.mp hmem
          exact ⟨fun _ => Knowledge.exists_of_callResults_getElem? hindexed hscope,
            fun _ => Knowledge.exist_of_callElements? hindexed hscope⟩
        · split at hmem
          · obtain rfl := List.mem_singleton.mp hmem
            exact exists_valueLocal hindexed hscope single
          · cases hmem
    · cases hmem

/-- A short declaration infers all its values first and then declares the names one
after the other. -/
theorem declareShort (hscope : scope.Sound module) (node : Tree) :
    (scope.declareShort node).Sound module := by
  refine hscope.foldl (fun scope target hstep => hstep.insert ?_ _) _
  cases hknown : (Scope.assigned _ _ _)[target.2]? with
  | none => exact .unknown
  | some about => exact exists_of_mem_assigned hindexed hscope (List.mem_of_getElem? hknown)

theorem declareSpec (hscope : scope.Sound module) (spec : Tree) :
    (scope.declareSpec spec).Sound module := by
  unfold Scope.declareSpec
  split
  · exact hscope.insertAll (exists_ofType hindexed hscope.within _) _
  · exact hscope.insertEach (fun _ => exists_of_mem_assigned hindexed hscope) _
  · exact hscope.insertEach (List.forall_mem_nil _) _

/-- The variables of a loop are keys and elements of what is looped over. -/
theorem declareRange (hscope : scope.Sound module) (clause : Tree) :
    (scope.declareRange clause).Sound module := by
  unfold Scope.declareRange
  split
  · split
    · refine hscope.insertEach ?_ _
      have hranged {elements : Elements}
          (hright : (clause.part? .right).bind scope.inferElements? = some elements) :
          elements.Exist module := by
        obtain ⟨right, -, helements⟩ := Option.bind_eq_some_iff.mp hright
        exact (Knowledge.sound_inferred hindexed).elements? hscope helements
      intro about hmem
      simp only [List.mem_cons, List.not_mem_nil, or_false] at hmem
      rcases hmem with rfl | rfl
      · refine .ofType fun type htype => ?_
        obtain ⟨elements, hright, hkey⟩ := Option.bind_eq_some_iff.mp htype
        exact (hranged hright).key type hkey
      · refine .ofType fun type htype => ?_
        obtain ⟨elements, hright, helement⟩ := Option.bind_eq_some_iff.mp htype
        exact (hranged hright).element type helement
    · exact hscope
  · exact hscope

theorem declare (hscope : scope.Sound module) (node : Tree) :
    (scope.declare node).Sound module := by
  unfold Scope.declare
  split
  case h_1 => exact hscope.declareShort hindexed node
  case h_2 | h_3 => exact hscope.declareSpec hindexed node
  case h_4 => exact hscope.declareRange hindexed node
  case h_5 =>
    split
    · exact hscope.declareParameters hindexed _
    · exact hscope
  case h_6 => exact hscope.insertEach (List.forall_mem_nil _) _
  case h_7 => exact hscope

/-- The scope of a function is sound: each of its variables is declared in a
scope that is. -/
theorem ofFunction (hwithin : context.Within module) (function : Tree) :
    (Scope.ofFunction context function).Sound module := by
  have hlists (lists : List Tree) :
      (lists.foldl Scope.declareParameters (Scope.ofContext context)).Sound module :=
    (Sound.ofContext hwithin).foldl (fun _ list hscope => hscope.declareParameters hindexed list) _
  unfold Scope.ofFunction
  dsimp only
  split
  · exact hlists _
  · exact (hlists _).foldl (fun _ node hscope => hscope.declare hindexed node) _

end

end Scope.Sound

-- =========================================================== the module

/-- In a loaded module every type that is told of is declared there, besides the
tests: by type expressions, for the variables of a function, and by inference,
in a function or outside. -/
theorem types_exist (hdisk : disk.WellFormed) (hload : load disk root = .ok module) {file : File}
    (hcontext : Context.ofFile? module file = some context) :
    (∀ node type, context.resolve? node = some type → type.Exists module)
      ∧ (∀ node elements, context.elements? node = some elements → elements.Exist module)
      ∧ ∀ scope : Scope,
        scope = .ofContext context ∨ (∃ function, scope = .ofFunction context function) →
          (∀ name type, scope.localType? name = some type → type.Exists module)
          ∧ (∀ node type, scope.infer? node = some type → type.Exists module)
          ∧ ∀ node elements, scope.inferElements? node = some elements →
            elements.Exist module := by
  have hindexed := indexed_of_load hdisk hload
  have hwithin := Context.within_of_ofFile? hcontext
  refine ⟨fun node _ => Context.exists_of_resolve? hindexed hwithin node,
    fun _ _ => Context.exist_of_elements? hindexed hwithin, fun scope hscope => ?_⟩
  have hsound : scope.Sound module := by
    rcases hscope with rfl | ⟨function, rfl⟩
    · exact .ofContext hwithin
    · exact .ofFunction hindexed hwithin function
  have hknown := Knowledge.sound_inferred hindexed
  refine ⟨fun name type htype => ?_, fun _ _ => hknown.type? hsound,
    fun _ _ => hknown.elements? hsound⟩
  obtain ⟨about, hlocal, htype⟩ := Option.bind_eq_some_iff.mp htype
  exact (hsound.local? hlocal).type type htype

/-- A function that goes through an embedded collection. -/
def basketText : List Char :=
  ("package basket\n\ntype Basket struct\x7b Items \x7d\n\ntype Items []Item\n\n"
    ++ "type Item struct\x7b\x7d\n\n"
    ++ "func Last(b *Basket) \x7b\n\tfor _, item := range b.Items \x7b\n"
    ++ "\t\tlast := &item\n\t\t_ = last\n\t\x7d\n\x7d\n").toList

/-- The disk with the function on it. -/
def basketDisk : Disk where
  entries := [(["basket"], .directory), (["basket", "a.go"], .file (.text basketText)),
    (["basket", "go.mod"], .file (.text "module basket\n".toList))]

/-- The module of the function. -/
def basket : Module :=
  moduleOf basketDisk ["basket"] "basket" ([(["basket", "a.go"], basketText)].filterMap parsedFile?)

/-- The pointer to an element of the collection is of a type that exists. -/
theorem types_exist_basket : basketDisk.WellFormed ∧ load basketDisk "/basket" = .ok basket
    ∧ ∃ (function : Declaration) (context : Context),
      Context.ofFile? basket function.file = some context
      ∧ (Scope.ofFunction context function.node).localType? "last" = some ⟨"basket", "Item", true⟩
      ∧ TypeRef.Exists basket ⟨"basket", "Item", true⟩ := by
  have hdisk : basketDisk.WellFormed := by decide +kernel
  have hload : load basketDisk "/basket" = .ok basket := by
    rw [basket, basketDisk, show basketText = _ from Text.toList_append_literal
      (Text.toList_append_literal (Text.toList_append_literal String.toList_ofList))]
    refine load_of_ordered ?_ ?_ ?_ ?_ ?_ <;> decide +kernel
  have hlast : (do
      let package ← basket.package? "basket"
      let function ← package.findFunction? "Last"
      let context ← Context.ofFile? basket function.file
      (Scope.ofFunction context function.node).localType? "last")
        = some ⟨"basket", "Item", true⟩ := by
    rw [basket, basketDisk, show basketText = _ from Text.toList_append_literal
      (Text.toList_append_literal (Text.toList_append_literal String.toList_ofList))]
    decide +kernel
  obtain ⟨package, -, hlast⟩ := Option.bind_eq_some_iff.mp hlast
  obtain ⟨function, -, hlast⟩ := Option.bind_eq_some_iff.mp hlast
  obtain ⟨context, hcontext, hlast⟩ := Option.bind_eq_some_iff.mp hlast
  obtain ⟨-, -, hscopes⟩ := types_exist hdisk hload hcontext
  exact ⟨hdisk, hload, function, context, hcontext, hlast,
    (hscopes _ (.inr ⟨_, rfl⟩)).1 _ _ hlast⟩

end Assay.Typing
