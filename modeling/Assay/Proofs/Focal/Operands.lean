/-
What stands behind the type of an expression. Inference tells types of all kinds of
expressions, and mostly there is a node in the expression that refers to the
declaration of the type it tells: a name, a selection, or a type that is written
out. A closure that meets the expression then holds the declaration
(`leads_of_infer?`).

Some expressions hide their type. The results of a function are written at its
declaration, and the elements of a collection at the collection's; a node is read as
the first thing that it can stand for, so a name that stands for two leads to one of
them (`Hides`).

The induction is on what inference knows. It may have found an operand's type with a
part of its budget only, while a node is read with all of it; that more budget tells
the same (`Knowledge.le_within`) is what joins the two.
-/
import Assay.Proofs.Focal.Direct
import Assay.Proofs.Focal.Shadowing
import Assay.Proofs.Typing.Budget

namespace Assay.Syntax.Tree

variable {tree child : Tree} {role : Role}

theorem mem_children_of_part? (hpart : tree.part? role = some child) : child ∈ tree.children :=
  List.mem_of_find?_eq_some hpart

theorem mem_children_of_firstNamed? (hfirst : tree.firstNamed? = some child) :
    child ∈ tree.children :=
  (List.mem_filter.mp (List.mem_of_head? hfirst)).1

end Assay.Syntax.Tree

namespace Assay.Typing

open Assay.Syntax Assay.Source

variable {context : Context} {scope : Scope} {package : Package} {name : String}
  {type : TypeRef} {tree : Tree} {trees : List Tree} {known : Knowledge}

-- ================================================================= types

namespace Context

/-- The type of a list of nodes is that of one of them. -/
theorem exists_mem_of_resolveFirst? (hresolve : context.resolveFirst? trees = some type) :
    ∃ tree ∈ trees, context.resolve? tree = some type := by
  induction trees with
  | nil =>
      rw [resolveFirst?] at hresolve
      cases hresolve
  | cons tree trees ih =>
      rw [resolveFirst?] at hresolve
      split at hresolve
      · exact ⟨tree, List.mem_cons_self, hresolve⟩
      · obtain ⟨later, hlater, hresolve⟩ := ih hresolve
        exact ⟨later, List.mem_cons_of_mem _ hlater, hresolve⟩

/-- The type of a generic type is that of its base. -/
theorem exists_mem_of_resolveGeneric? (hresolve : context.resolveGeneric? trees = some type) :
    ∃ tree ∈ trees, context.resolve? tree = some type := by
  induction trees with
  | nil =>
      rw [resolveGeneric?] at hresolve
      cases hresolve
  | cons tree trees ih =>
      rw [resolveGeneric?] at hresolve
      split at hresolve
      · exact ⟨tree, List.mem_cons_self, hresolve⟩
      · obtain ⟨later, hlater, hresolve⟩ := ih hresolve
        exact ⟨later, List.mem_cons_of_mem _ hlater, hresolve⟩

end Context

-- ============================================================== inference

/-- The type of a name that is no variable's is that of a value of the package. -/
theorem exists_findValue? (hkind : tree.kind = .identifier)
    (hlocal : scope.isLocal (scope.text tree) = false) (htype : scope.infer? tree = some type) :
    ∃ spec, scope.context.package.findValue? (scope.text tree) = some spec := by
  have htype : (Knowledge.within (inferenceBudget - 1)).typeOf? scope tree = some type := htype
  have hnone : scope.local? (scope.text tree) = none := by
    rwa [Scope.isLocal, Option.isSome_eq_false_iff, Option.isNone_iff_eq_none] at hlocal
  rw [Knowledge.typeOf?, hkind] at htype
  dsimp only at htype
  rw [Knowledge.nameType?, hnone] at htype
  obtain ⟨spec, hspec, -⟩ := Option.bind_eq_some_iff.mp htype
  exact ⟨spec, hspec⟩

/-- A name that converts to a type is the name of that type, and no function's. -/
theorem namedCallee?_conversion
    (hcallee : Knowledge.namedCallee? scope name = some (.conversion type)) :
    scope.isLocal name = false
      ∧ packageCallee? scope.context.package name = some (.conversion type) := by
  unfold Knowledge.namedCallee? at hcallee
  split at hcallee
  · cases hcallee
  · next hlocal => exact ⟨Bool.eq_false_iff.mpr hlocal, hcallee⟩

theorem packageCallee?_conversion
    (hcallee : packageCallee? package name = some (.conversion type)) :
    package.findFunction? name = none ∧ Context.declared? package name = some type := by
  unfold packageCallee? at hcallee
  split at hcallee
  · cases hcallee
  · next hfunction =>
      obtain ⟨declared, hdeclared, hsame⟩ := Option.map_eq_some_iff.mp hcallee
      cases hsame
      exact ⟨hfunction, hdeclared⟩

/-- How a call can name the type that it converts to. -/
inductive Converts (scope : Scope) (type : TypeRef) : Tree → Prop where
  | name {function : Tree} (hkind : function.kind = .identifier)
      (hcallee : Knowledge.namedCallee? scope (scope.text function) = some (.conversion type)) :
      Converts scope type function
  | selector {function operand field : Tree} {package : Package}
      (hkind : function.kind = .selectorExpression)
      (hoperand : function.part? .operand = some operand)
      (hfield : function.part? .field = some field)
      (hpackage : scope.packageOperand? operand = some package)
      (hcallee : packageCallee? package (scope.text field) = some (.conversion type)) :
      Converts scope type function
  | parens {function inner : Tree} (hkind : function.kind = .parenthesizedExpression)
      (hfirst : function.firstNamed? = some inner) (hname : inner.kind = .identifier)
      (hcallee : Knowledge.namedCallee? scope (scope.text inner) = some (.conversion type)) :
      Converts scope type function

theorem Knowledge.exists_converts (hcallee : known.callee? scope tree = some (.conversion type)) :
    ∃ function, tree.part? .function = some function ∧ Converts scope type function := by
  obtain ⟨function, hfunction, hrest⟩ := Option.bind_eq_some_iff.mp hcallee
  refine ⟨function, hfunction, ?_⟩
  split at hrest
  · next hkind => exact .name hkind hrest
  · next hkind =>
      obtain ⟨operand, hoperand, hrest⟩ := Option.bind_eq_some_iff.mp hrest
      obtain ⟨field, hfield, hrest⟩ := Option.bind_eq_some_iff.mp hrest
      split at hrest
      · next hpackage => exact .selector hkind hoperand hfield hpackage hrest
      · obtain ⟨owner, -, hrest⟩ := Option.bind_eq_some_iff.mp hrest
        obtain ⟨method, -, hsame⟩ := Option.map_eq_some_iff.mp hrest
        cases hsame
  · next hkind =>
      obtain ⟨inner, hinner, hrest⟩ := Option.bind_eq_some_iff.mp hrest
      obtain ⟨hname, hrest⟩ := Option.ite_none_right_eq_some.mp hrest
      exact .parens hkind hinner hname hrest
  · cases hrest

end Assay.Typing

namespace Assay.Focal

open Assay.Syntax Assay.Source Assay.Typing

variable {above : List Label} {label : Label} {tree child : Tree} {visit other : Tree.Visit}
  {scope : Scope} {package : Package} {type : TypeRef} {name : String} {known : Knowledge}

theorem Occurs.trans (hoccurs : Occurs above tree visit)
    (hbelow : Occurs visit.above visit.tree other) : Occurs above tree other := by
  induction hoccurs with
  | here => exact hbelow
  | inside hchild _ ih => exact .inside hchild (ih hbelow)

theorem Occurs.of_mem_children (hchild : child ∈ tree.children) :
    Occurs above tree ⟨child, tree.label :: above⟩ := by
  obtain ⟨label, children⟩ := tree
  exact .inside hchild (.here _ _)

namespace Reference

-- ================================================================ leading

/-- Some node of a tree refers to the declaration of a type. -/
def Leads (scope : Scope) (above : List Label) (tree : Tree) (type : TypeRef) : Prop :=
  ∃ visit, Occurs above tree visit
    ∧ (toTypeRef? scope.context.module type).toList ⊆ ofVisit scope visit

theorem Leads.below (hchild : child ∈ tree.children)
    (leads : Leads scope (tree.label :: above) child type) : Leads scope above tree type := by
  obtain ⟨visit, hoccurs, hrefers⟩ := leads
  exact ⟨visit, (Occurs.of_mem_children hchild).trans hoccurs, hrefers⟩

/-- A type and a pointer to it have one declaration. -/
theorem Leads.withPointer (leads : Leads scope above tree type) (pointer : Bool) :
    Leads scope above tree { type with pointer } :=
  leads

/-- A node leads to the type that it refers to itself. -/
theorem Leads.here
    (hvisit : ofVisit scope ⟨tree, above⟩ = (toTypeRef? scope.context.module type).toList) :
    Leads scope above tree type :=
  ⟨_, .here _ _, hvisit ▸ List.Subset.refl _⟩

theorem isLiteralKey_cons (hkind : label.kind ≠ .literalElement) :
    isLiteralKey (label :: above) = false := by
  cases above with
  | nil => rfl
  | cons => simp [isLiteralKey, hkind]

theorem isQualified_cons (hkind : label.kind ≠ .qualifiedType) :
    isQualified (label :: above) = false :=
  beq_eq_false_iff_ne.mpr hkind

/-- A type that is written out leads to the declared type that it denotes. -/
theorem leads_of_resolve? : ∀ (above : List Label) (tree : Tree) {type : TypeRef},
    isQualified above = false → scope.context.resolve? tree = some type →
      Leads scope above tree type
  | above, .node label children, type, hbare, hresolve => by
    have hbelow (hkind : label.kind ≠ .qualifiedType) {type : TypeRef}
        (hdenotes : ∃ child ∈ children, scope.context.resolve? child = some type) :
        Leads scope above (.node label children) type := by
      obtain ⟨child, hchild, hdenotes⟩ := hdenotes
      exact .below hchild (leads_of_resolve? _ child (isQualified_cons hkind) hdenotes)
    cases hkind : label.kind with
    | typeIdentifier | qualifiedType =>
        refine .here ?_
        simp [ofVisit, Tree.kind, Tree.label, hkind, hbare, hresolve]
    | pointerType =>
        rw [Context.resolve?, hkind] at hresolve
        obtain ⟨pointed, hpointed, rfl⟩ := Option.map_eq_some_iff.mp hresolve
        exact (hbelow (by rw [hkind]; decide)
          (Context.exists_mem_of_resolveFirst? hpointed)).withPointer true
    | genericType =>
        rw [Context.resolve?, hkind] at hresolve
        exact hbelow (by rw [hkind]; decide) (Context.exists_mem_of_resolveGeneric? hresolve)
    | parenthesizedType =>
        rw [Context.resolve?, hkind] at hresolve
        exact hbelow (by rw [hkind]; decide) (Context.exists_mem_of_resolveFirst? hresolve)
    | _ =>
        rw [Context.resolve?, hkind] at hresolve
        cases hresolve

/-- A collection that is written out has elements of the type that one of its parts
denotes. -/
theorem exists_elements? (context : Context) {written : Tree}
    (hcollection : written.kind ∈ [.sliceType, .arrayType, .implicitLengthArrayType, .mapType]) :
    ∃ elements role, context.elements? written = some elements
      ∧ elements.element = context.resolvePart? written.children role := by
  obtain ⟨label, children⟩ := written
  have hkind : label.kind = .sliceType ∨ label.kind = .arrayType
      ∨ label.kind = .implicitLengthArrayType ∨ label.kind = .mapType := by
    simpa [Tree.kind, Tree.label] using hcollection
  rw [Context.elements?]
  rcases hkind with hkind | hkind | hkind | hkind <;> rw [Context.elementsBy?, hkind]
  · exact ⟨_, .element, rfl, rfl⟩
  · exact ⟨_, .element, rfl, rfl⟩
  · exact ⟨_, .element, rfl, rfl⟩
  · exact ⟨_, .value, rfl, rfl⟩

/-- A type that a package declares is the one that its name leads to. -/
theorem exists_toTypeRef?_of_declared? {module : Module} (hindexed : Indexed module)
    (hpackage : package ∈ module.allPackages)
    (hdeclared : Context.declared? package name = some type) :
    ∃ spec, package.findType? name = some spec
      ∧ toTypeRef? module type = some (toType package spec) := by
  obtain ⟨hdeclares, hsame⟩ := Option.ite_none_right_eq_some.mp hdeclared
  obtain ⟨spec, hspec⟩ := Option.isSome_iff_exists.mp hdeclares
  cases hsame
  exact ⟨spec, hspec, by simp [toTypeRef?, typeSpec?, hindexed package hpackage, hspec]⟩

-- ================================================================= hiding

/-- A package declares a value of this name, and a function or a type besides. -/
def DeclaredTwice (package : Package) (name : String) : Prop :=
  (package.findValue? name).isSome
    ∧ ((package.findFunction? name).isSome ∨ (package.findType? name).isSome)

/-- A value that is not declared twice has its name for itself. -/
theorem only_value {spec : ValueSpec} (hvalue : package.findValue? name = some spec)
    (hsingle : ¬ DeclaredTwice package name) :
    package.findFunction? name = none ∧ package.findType? name = none := by
  obtain ⟨hfunction, htype⟩ :=
    not_or.mp fun hother => hsingle ⟨Option.isSome_of_eq_some hvalue, hother⟩
  exact ⟨Option.not_isSome_iff_eq_none.mp hfunction, Option.not_isSome_iff_eq_none.mp htype⟩

/-- The name is that of an import, and the package declares something of this name. -/
def Imported (scope : Scope) (name : String) : Prop :=
  scope.isPackageName name = true ∧ ((scope.context.package.findValue? name).isSome
    ∨ (scope.context.package.findType? name).isSome)

/-- The expression indexes a literal with its collection written out. -/
def IndexesLiteral (tree : Tree) : Prop :=
  ∃ operand written, tree.part? .operand = some operand ∧ operand.kind = .compositeLiteral
    ∧ operand.part? .type = some written
    ∧ written.kind ∈ [.sliceType, .arrayType, .implicitLengthArrayType, .mapType]

/-- An expression may have a type without a node that refers to it. -/
inductive Hides (scope : Scope) : Tree → Prop where
  /-- The type is that of a result. -/
  | call {tree : Tree} {declaration : Declaration} (hkind : tree.kind = .callExpression)
      (hcallee : inferred.callee? scope tree = some (.function declaration)) : Hides scope tree
  /-- The type is that of an element. -/
  | element {tree : Tree} (hkind : tree.kind = .indexExpression)
      (hwritten : ¬ IndexesLiteral tree) : Hides scope tree
  /-- The type is that of a field, and there is a method of its name. -/
  | method {tree operand field : Tree} {owner : TypeRef}
      (hkind : tree.kind = .selectorExpression) (hoperand : tree.part? .operand = some operand)
      (hfield : tree.part? .field = some field) (howner : scope.infer? operand = some owner)
      (hmethod : (method? scope.context.module owner (scope.text field)).isSome) :
      Hides scope tree
  /-- The type is that of a value, and there is a function or a type of its name. -/
  | name {tree : Tree} (hkind : tree.kind = .identifier)
      (hlocal : scope.isLocal (scope.text tree) = false)
      (htwice : DeclaredTwice scope.context.package (scope.text tree)) : Hides scope tree
  | selected {tree operand field : Tree} {package : Package}
      (hkind : tree.kind = .selectorExpression) (hoperand : tree.part? .operand = some operand)
      (hfield : tree.part? .field = some field)
      (hpackage : scope.packageOperand? operand = some package)
      (htwice : DeclaredTwice package (scope.text field)) : Hides scope tree
  /-- A name in the expression is taken for an import. -/
  | imported {tree : Tree} {visit : Tree.Visit} (hoccurs : Occurs [] tree visit)
      (hkind : visit.tree.kind = .identifier)
      (himported : Imported scope (scope.text visit.tree)) : Hides scope tree
  | unary {tree inner : Tree} (hkind : tree.kind = .unaryExpression)
      (hinner : tree.part? .operand = some inner) (hides : Hides scope inner) : Hides scope tree
  | parens {tree inner : Tree} (hkind : tree.kind = .parenthesizedExpression)
      (hinner : tree.firstNamed? = some inner) (hides : Hides scope inner) : Hides scope tree

/-- A variable hides nothing. -/
theorem not_hides_of_isLocal (hkind : tree.kind = .identifier) (hleaf : tree.children = [])
    (hlocal : scope.isLocal (scope.text tree) = true) : ¬ Hides scope tree := by
  intro hides
  cases hides with
  | name _ hother => cases hlocal.symm.trans hother
  | imported hoccurs _ himported =>
      cases hoccurs with
      | here => cases (Scope.isPackageName_of_isLocal hlocal).symm.trans himported.1
      | inside hchild =>
          obtain rfl : _ = [] := hleaf
          cases hchild
  | call hother | element hother | method hother | selected hother | unary hother
  | parens hother => cases hkind.symm.trans hother

-- ============================================================ expressions

section

variable (hshows : ¬ Hides scope tree)

include hshows

/-- A name leads to the type that inference tells of it. -/
theorem leads_of_identifier (hkind : tree.kind = .identifier) (hkey : isLiteralKey above = false)
    (htype : scope.infer? tree = some type) : Leads scope above tree type := by
  refine .here ?_
  have hname : ofName? scope tree = toTypeRef? scope.context.module type := by
    rw [ofName?]
    cases hlocal : scope.isLocal (scope.text tree) with
    | true =>
        rw [← Scope.infer?_of_isLocal hkind hlocal, htype]
        rfl
    | false =>
        obtain ⟨spec, hspec⟩ := exists_findValue? hkind hlocal htype
        have himport : scope.isPackageName (scope.text tree) = false :=
          Bool.eq_false_iff.mpr fun himport => hshows
            (.imported (.here [] tree) hkind ⟨himport, .inl (Option.isSome_of_eq_some hspec)⟩)
        obtain ⟨hfunction, hnotype⟩ :=
          only_value hspec fun htwice => hshows (.name hkind hlocal htwice)
        simp [himport, hfunction, hnotype, htype]
  simp [ofVisit, hkind, hkey, hname]

/-- A name that converts to a type leads to it. -/
theorem leads_of_conversion (hindexed : Indexed scope.context.module)
    (hloaded : scope.context.package ∈ scope.context.module.allPackages) {node : Tree}
    {labels : List Label} (hoccurs : Occurs [] tree ⟨node, labels⟩)
    (hkind : node.kind = .identifier)
    (hkey : isLiteralKey above = false)
    (hcallee : Knowledge.namedCallee? scope (scope.text node) = some (.conversion type)) :
    Leads scope above node type := by
  obtain ⟨hlocal, hcallee⟩ := namedCallee?_conversion hcallee
  obtain ⟨hfunction, hdeclared⟩ := packageCallee?_conversion hcallee
  obtain ⟨spec, hspec, htype⟩ := exists_toTypeRef?_of_declared? hindexed hloaded hdeclared
  have himport : scope.isPackageName (scope.text node) = false :=
    Bool.eq_false_iff.mpr fun himport =>
      hshows (.imported hoccurs hkind ⟨himport, .inr (Option.isSome_of_eq_some hspec)⟩)
  refine .here ?_
  simp [ofVisit, hkind, hkey, ofName?, hlocal, himport, hfunction, hspec, htype]

/-- A selection leads to the type that inference tells of it. -/
theorem leads_of_selector (hle : known.Le inferred) (hkind : tree.kind = .selectorExpression)
    (hselector : known.selectorType? scope tree = some type)
    (htype : scope.infer? tree = some type) : Leads scope above tree type := by
  obtain ⟨operand, hoperand, hrest⟩ := Option.bind_eq_some_iff.mp hselector
  obtain ⟨field, hfield, hrest⟩ := Option.bind_eq_some_iff.mp hrest
  refine .here ?_
  have hofSelector : ofVisit scope ⟨tree, above⟩ = ofSelector scope tree := by
    simp only [ofVisit, hkind]
  rw [hofSelector]
  split at hrest
  · next package hpackage =>
      obtain ⟨spec, hspec, -⟩ := Option.bind_eq_some_iff.mp hrest
      obtain ⟨hfunction, hnotype⟩ := only_value hspec fun htwice =>
        hshows (.selected hkind hoperand hfield hpackage htwice)
      simp [ofSelector, hoperand, hfield, hpackage, ofPackageSelector?, hfunction, hnotype, htype]
  · next hpackage =>
      obtain ⟨owner, howner, hrest⟩ := Option.bind_eq_some_iff.mp hrest
      obtain ⟨found, hfound, hresolve⟩ := Option.bind_eq_some_iff.mp hrest
      have howner : scope.infer? operand = some owner := hle.type? howner
      have hmethod : method? scope.context.module owner (scope.text field) = none :=
        Option.not_isSome_iff_eq_none.mp fun h =>
          hshows (.method hkind hoperand hfield howner h)
      have himport : ¬(operand.kind = .identifier
          ∧ scope.isPackageName (scope.text operand) = true) := by
        rintro ⟨hname, himport⟩
        have hlocal : scope.isLocal (scope.text operand) = false := by
          rw [Scope.isPackageName, Bool.and_eq_true, Bool.not_eq_true'] at himport
          exact himport.1
        obtain ⟨spec, hspec⟩ := exists_findValue? hname hlocal howner
        exact hshows (.imported (.of_mem_children (Tree.mem_children_of_part? hoperand)) hname
          ⟨himport, .inl (Option.isSome_of_eq_some hspec)⟩)
      simp [ofSelector, hoperand, hfield, hpackage, himport, ofValueSelector, howner, hmethod,
        hfound, hresolve]

/-- A call leads to the type that it converts to. -/
theorem leads_of_call (hindexed : Indexed scope.context.module)
    (hloaded : scope.context.package ∈ scope.context.module.allPackages)
    (hle : known.Le inferred) (hkind : tree.kind = .callExpression)
    (hresult : (known.callResults scope tree).head?.join = some type) :
    Leads scope above tree type := by
  unfold Knowledge.callResults at hresult
  split at hresult
  · next declaration hcallee => exact (hshows (.call hkind (hle.callee? hcallee))).elim
  · next converted hcallee =>
      obtain rfl : converted = type := Option.some.inj hresult
      obtain ⟨function, hfunction, hconverts⟩ := Knowledge.exists_converts hcallee
      have hchild := Tree.mem_children_of_part? hfunction
      have hbelow : Occurs [] tree ⟨function, [tree.label]⟩ := .of_mem_children hchild
      refine .below hchild ?_
      have hcallKey : isLiteralKey (tree.label :: above) = false :=
        isLiteralKey_cons (by rw [show tree.label.kind = _ from hkind]; decide)
      cases hconverts with
      | name hname hcallee =>
          exact leads_of_conversion hshows hindexed hloaded hbelow hname hcallKey hcallee
      | selector hselector hoperand hfield hpackage hcallee =>
          obtain ⟨hnone, hdeclared⟩ := packageCallee?_conversion hcallee
          obtain ⟨-, himported⟩ := Option.ite_none_right_eq_some.mp hpackage
          obtain ⟨spec, hspec, htype⟩ := exists_toTypeRef?_of_declared? hindexed
            (mem_allPackages_of_imported? himported) hdeclared
          refine .here ?_
          simp [ofVisit, hselector, ofSelector, hoperand, hfield, hpackage, ofPackageSelector?,
            hnone, hspec, htype]
      | parens hparens hfirst hname hcallee =>
          have hinner := Tree.mem_children_of_firstNamed? hfirst
          have hparensKey : isLiteralKey (function.label :: tree.label :: above) = false :=
            isLiteralKey_cons (by rw [show function.label.kind = _ from hparens]; decide)
          exact .below hinner (leads_of_conversion hshows hindexed hloaded
            (hbelow.trans (.of_mem_children hinner)) hname hparensKey hcallee)
  · cases hresult

/-- An element of a literal with its collection written out leads to its type. -/
theorem leads_of_element (hle : known.Le inferred) (hkind : tree.kind = .indexExpression)
    (helement : ((tree.part? .operand).bind (known.elements? scope)).bind (·.element) = some type) :
    Leads scope above tree type := by
  obtain ⟨operand, written, hoperand, hliteral, hwritten, hcollection⟩ :=
    not_not.mp fun hother => hshows (.element hkind hother)
  rw [hoperand, Option.bind_some] at helement
  obtain ⟨told, htold, helement⟩ := Option.bind_eq_some_iff.mp helement
  obtain ⟨elements, role, helements, hpart⟩ := exists_elements? scope.context hcollection
  -- The form of a literal tells its elements, before its type is asked for them.
  have hform : (Knowledge.within (inferenceBudget - 1)).elementsOf? scope operand
      = some elements := by
    rw [Knowledge.elementsOf?, Knowledge.directElements?, hliteral]
    dsimp only
    rw [hwritten, Option.bind_some, helements]
    rfl
  have hsame : elements = told := Option.some.inj (hform.symm.trans (hle.elements? htold))
  rw [← hsame, hpart] at helement
  obtain ⟨part, hpart, hresolve⟩ := Option.bind_eq_some_iff.mp helement
  have hbare : isQualified (written.label :: operand.label :: tree.label :: above) = false :=
    isQualified_cons fun hkind => by
      rw [show written.kind = _ from hkind] at hcollection
      simp at hcollection
  exact .below (Tree.mem_children_of_part? hoperand) (.below (Tree.mem_children_of_part? hwritten)
    (.below (List.mem_of_find?_eq_some hpart) (leads_of_resolve? _ part hbare hresolve)))

end

/-- Where a part of the budget tells the type of an expression, the expression leads to
the type, unless it hides it. -/
theorem leads_of_type? (hindexed : Indexed scope.context.module)
    (hloaded : scope.context.package ∈ scope.context.module.allPackages) {budget : Nat}
    (hbudget : budget ≤ inferenceBudget) (hshows : ¬ Hides scope tree)
    (hkey : isLiteralKey above = false)
    (htype : (Knowledge.within budget).type? scope tree = some type) :
    Leads scope above tree type := by
  induction budget generalizing above tree type with
  | zero => cases htype
  | succ budget ih =>
      have hle : (Knowledge.within budget).Le inferred :=
        Knowledge.le_within (Nat.le_of_succ_le hbudget)
      have htold : scope.infer? tree = some type := (Knowledge.le_within hbudget).type? htype
      have hinner {inner : Tree} {type : TypeRef} (hchild : inner ∈ tree.children)
          (hplain : tree.kind ≠ .literalElement) (hshows : ¬ Hides scope inner)
          (htype : (Knowledge.within budget).type? scope inner = some type) :
          Leads scope above tree type :=
        .below hchild (ih (Nat.le_of_succ_le hbudget) hshows (isLiteralKey_cons hplain) htype)
      have htype : (Knowledge.within budget).typeOf? scope tree = some type := htype
      unfold Knowledge.typeOf? at htype
      split at htype
      case h_1 hkind => exact leads_of_identifier hshows hkind hkey htold
      case h_2 hkind | h_3 hkind | h_4 hkind =>
        obtain ⟨written, hwritten, hresolve⟩ := Option.bind_eq_some_iff.mp htype
        have hbare : isQualified (tree.label :: above) = false :=
          isQualified_cons (by rw [show tree.label.kind = _ from hkind]; decide)
        exact .below (Tree.mem_children_of_part? hwritten)
          (leads_of_resolve? _ written hbare hresolve)
      case h_5 hkind =>
        obtain ⟨operator, -, hrest⟩ := Option.bind_eq_some_iff.mp htype
        obtain ⟨operand, hoperand, hrest⟩ := Option.bind_eq_some_iff.mp hrest
        obtain ⟨pointed, hpointed, hrest⟩ := Option.bind_eq_some_iff.mp hrest
        have leads := hinner (Tree.mem_children_of_part? hoperand) (by rw [hkind]; decide)
          (fun hides => hshows (.unary hkind hoperand hides)) hpointed
        split at hrest
        · obtain rfl := Option.some.inj hrest
          exact leads.withPointer true
        · obtain ⟨-, hsame⟩ := Option.ite_none_right_eq_some.mp hrest
          obtain rfl := Option.some.inj hsame
          exact leads.withPointer false
      case h_6 hkind =>
        obtain ⟨inner, hfirst, htype⟩ := Option.bind_eq_some_iff.mp htype
        exact hinner (Tree.mem_children_of_firstNamed? hfirst) (by rw [hkind]; decide)
          (fun hides => hshows (.parens hkind hfirst hides)) htype
      case h_7 hkind => exact leads_of_call hshows hindexed hloaded hle hkind htype
      case h_8 hkind => exact leads_of_element hshows hle hkind htype
      case h_9 hkind => exact leads_of_selector hshows hle hkind htype htold
      case h_10 => cases htype

/-- Where inference tells the type of an expression, the expression leads to the type,
unless it hides it. -/
theorem leads_of_infer? (hindexed : Indexed scope.context.module)
    (hloaded : scope.context.package ∈ scope.context.module.allPackages)
    (hshows : ¬ Hides scope tree) (hkey : isLiteralKey above = false)
    (htype : scope.infer? tree = some type) : Leads scope above tree type :=
  leads_of_type? hindexed hloaded Nat.le.refl hshows hkey htype

end Reference

end Assay.Focal
