/-
What a larger budget changes: nothing that is told already. Most of it is plain,
for a step of inference does with an answer what it would do with the same answer
on a larger budget (`next_le_next`). Elements are the exception. They are read off
an expression's form, or else off its type, and with a larger budget the form may
tell what it did not tell before.

It tells nothing new, because both readings agree. A type expression that denotes
a type has the elements of that type (`elements?_of_resolve?`), so wherever a type
came from, the form leads to the same declaration, a step earlier. Where the form
tells nothing and the type does, the form is one that never tells anything, or a
variable of which no elements are known (`Typed`).
-/
import Assay.Proofs.Typing.Existence

namespace Assay.Typing

open Assay.Syntax Assay.Source

variable {module : Module} {package : Package} {context : Context} {name : String}
  {type : TypeRef} {elements : Elements} {scope : Scope} {tree : Tree} {spec : ValueSpec}

-- ==================================================== types and elements

namespace Context

variable {named? : TypeRef → Option Elements}

mutual

/-- A type expression that denotes a declared type has the elements of that type,
if pointers to it have them too. -/
theorem elementsBy?_of_resolve? (hnamed : ∀ type pointer,
      named? { type with pointer } = named? type) :
    ∀ (tree : Tree) {type : TypeRef},
      context.resolve? tree = some type → context.elementsBy? named? tree = named? type
  | .node label children, type, hresolve => by
    have hself (hsame : context.elementsBy? named? (.node label children)
        = (context.resolve? (.node label children)).bind named?) :
        context.elementsBy? named? (.node label children) = named? type := by
      rw [hsame, hresolve, Option.bind_some]
    cases hkind : label.kind with
    | typeIdentifier | qualifiedType | genericType =>
        refine hself ?_
        rw [elementsBy?, hkind]
    | pointerType =>
        rw [resolve?, hkind] at hresolve
        obtain ⟨pointed, hpointed, rfl⟩ := Option.map_eq_some_iff.mp hresolve
        rw [elementsBy?, hkind]
        exact (elementsOfFirst?_of_resolveFirst? hnamed children hpointed).trans
          (hnamed pointed true).symm
    | parenthesizedType =>
        rw [resolve?, hkind] at hresolve
        rw [elementsBy?, hkind]
        exact elementsOfFirst?_of_resolveFirst? hnamed children hresolve
    | _ =>
        rw [resolve?, hkind] at hresolve
        cases hresolve

theorem elementsOfFirst?_of_resolveFirst? (hnamed : ∀ type pointer,
      named? { type with pointer } = named? type) :
    ∀ (trees : List Tree) {type : TypeRef},
      context.resolveFirst? trees = some type → context.elementsOfFirst? named? trees = named? type
  | [], _, hresolve => by
    rw [resolveFirst?] at hresolve
    cases hresolve
  | tree :: trees, _, hresolve => by
    rw [resolveFirst?] at hresolve
    rw [elementsOfFirst?]
    split at hresolve
    · next hnamed' =>
        rw [if_pos hnamed']
        exact elementsBy?_of_resolve? hnamed tree hresolve
    · next hnamed' =>
        rw [if_neg hnamed']
        exact elementsOfFirst?_of_resolveFirst? hnamed trees hresolve

end

/-- A type expression that denotes a declared type has the elements of that
type. -/
theorem elements?_of_resolve? (hresolve : context.resolve? tree = some type) :
    context.elements? tree = collection? context.module type :=
  elementsBy?_of_resolve? (fun _ _ => rfl) tree hresolve

theorem module_of_ofFile? {file : File} (hcontext : ofFile? module file = some context) :
    context.module = module :=
  (within_of_ofFile? hcontext).module_eq

end Context

-- ============================================================ more is told

namespace Knowledge

/-- Whatever the one tells, the other tells too. -/
structure Le (known more : Knowledge) : Prop where
  type? : ∀ {scope : Scope} {expression : Tree} {type : TypeRef},
    known.type? scope expression = some type → more.type? scope expression = some type
  elements? : ∀ {scope : Scope} {expression : Tree} {elements : Elements},
    known.elements? scope expression = some elements →
      more.elements? scope expression = some elements

variable {known more : Knowledge} {callee : Callee} {index : Nat}

/-- What is found in two steps is found where each of them finds as much. -/
theorem bind_mono {α β : Type} {first later : Option α} {next further : α → Option β} {answer : β}
    (hfirst : ∀ part, first = some part → later = some part)
    (hnext : ∀ part, next part = some answer → further part = some answer)
    (hfound : first.bind next = some answer) : later.bind further = some answer := by
  obtain ⟨part, hpart, hanswer⟩ := Option.bind_eq_some_iff.mp hfound
  exact Option.bind_eq_some_iff.mpr ⟨part, hfirst part hpart, hnext part hanswer⟩

section Step

variable (hle : known.Le more)

include hle

theorem Le.callee? (hcallee : known.callee? scope tree = some callee) :
    more.callee? scope tree = some callee := by
  refine bind_mono (fun _ => id) (fun function hrest => ?_) hcallee
  split at hrest
  · exact hrest
  · refine bind_mono (fun _ => id) (fun operand => bind_mono (fun _ => id) fun field hrest => ?_) hrest
    split at hrest
    · exact hrest
    · exact bind_mono (fun _ => hle.type?) (fun _ => id) hrest
  · exact hrest
  · exact hrest

theorem Le.callResults (hresult : ((known.callResults scope tree)[index]?).join = some type) :
    ((more.callResults scope tree)[index]?).join = some type := by
  unfold Knowledge.callResults at hresult ⊢
  cases hcallee : known.callee? scope tree with
  | none =>
      rw [hcallee] at hresult
      cases hresult
  | some callee => rwa [hle.callee? hcallee, ← hcallee]

theorem Le.callElements? (helements : known.callElements? scope tree index = some elements) :
    more.callElements? scope tree index = some elements :=
  bind_mono (fun _ => hle.callee?) (fun _ => id) helements

end Step

/-- What one way of telling of calls and expressions has to say of a value, another
has to say too, if it has of calls and expressions. -/
theorem exists_ofValue? {α β : Type} {ofCall ofExpression : Tree → Option α}
    {ofCall' ofExpression' : Tree → Option β} {answer : α} {Fits : β → Prop}
    (hcall : ∀ tree, ofCall tree = some answer → ∃ other, ofCall' tree = some other ∧ Fits other)
    (hexpression : ∀ tree, ofExpression tree = some answer →
      ∃ other, ofExpression' tree = some other ∧ Fits other)
    (hvalue : ofValue? spec ofCall ofExpression = some answer) :
    ∃ other, ofValue? spec ofCall' ofExpression' = some other ∧ Fits other := by
  obtain ⟨list, hlist, hrest⟩ := Option.bind_eq_some_iff.mp hvalue
  unfold ofValue?
  rw [hlist, Option.bind_eq_bind, Option.bind_some]
  dsimp only at hrest ⊢
  split at hrest
  · split at hrest
    · next hlater =>
        rw [if_pos hlater]
        exact hcall _ hrest
    · next hfirst =>
        rw [if_neg hfirst]
        exact hexpression _ hrest
  · obtain ⟨value, hat, hrest⟩ := Option.bind_eq_some_iff.mp hrest
    obtain ⟨other, hother, hfits⟩ := hexpression value hrest
    exact ⟨other, by rw [hat, Option.bind_some, hother], hfits⟩

section Step

variable (hle : known.Le more)

include hle

theorem Le.valueType? (htype : known.valueType? module spec = some type) :
    more.valueType? module spec = some type := by
  refine bind_mono (fun _ => id) (fun context hrest => ?_) htype
  split at hrest
  · exact hrest
  · obtain ⟨other, hother, rfl⟩ := exists_ofValue? (fun _ h => ⟨_, hle.callResults h, rfl⟩)
      (fun _ h => ⟨_, hle.type? h, rfl⟩) hrest
    exact hother

theorem Le.valueElements? (helements : known.valueElements? module spec = some elements) :
    more.valueElements? module spec = some elements := by
  refine bind_mono (fun _ => id) (fun context hrest => ?_) helements
  split at hrest
  · exact hrest
  · obtain ⟨other, hother, rfl⟩ := exists_ofValue? (fun _ h => ⟨_, hle.callElements? h, rfl⟩)
      (fun _ h => ⟨_, hle.elements? h, rfl⟩) hrest
    exact hother

theorem Le.nameType? (htype : known.nameType? scope name = some type) :
    more.nameType? scope name = some type := by
  unfold Knowledge.nameType? at htype ⊢
  split at htype
  · exact htype
  · exact bind_mono (fun _ => id) (fun _ => hle.valueType?) htype

theorem Le.nameElements? (helements : known.nameElements? scope name = some elements) :
    more.nameElements? scope name = some elements := by
  unfold Knowledge.nameElements? at helements ⊢
  split at helements
  · exact helements
  · exact bind_mono (fun _ => id) (fun _ => hle.valueElements?) helements

theorem Le.unaryType? (htype : known.unaryType? scope tree = some type) :
    more.unaryType? scope tree = some type :=
  bind_mono (fun _ => id) (fun _ => bind_mono (fun _ => id) fun _ =>
    bind_mono (fun _ => hle.type?) fun _ => id) htype

theorem Le.selectorType? (htype : known.selectorType? scope tree = some type) :
    more.selectorType? scope tree = some type := by
  refine bind_mono (fun _ => id) (fun operand => bind_mono (fun _ => id) fun field hrest => ?_) htype
  split at hrest
  · exact bind_mono (fun _ => id) (fun _ => hle.valueType?) hrest
  · exact bind_mono (fun _ => hle.type?) (fun _ => id) hrest

theorem Le.selectorElements? (helements : known.selectorElements? scope tree = some elements) :
    more.selectorElements? scope tree = some elements := by
  refine bind_mono (fun _ => id) (fun operand => bind_mono (fun _ => id) fun field hrest => ?_)
    helements
  split at hrest
  · exact bind_mono (fun _ => id) (fun _ => hle.valueElements?) hrest
  · exact bind_mono (fun _ => hle.type?) (fun _ => id) hrest

theorem Le.typeOf? (htype : known.typeOf? scope tree = some type) :
    more.typeOf? scope tree = some type := by
  unfold Knowledge.typeOf? at htype ⊢
  split at htype
  case h_1 => exact hle.nameType? htype
  case h_2 | h_3 | h_4 => exact htype
  case h_5 => exact hle.unaryType? htype
  case h_6 => exact bind_mono (fun _ => id) (fun _ => hle.type?) htype
  case h_7 =>
    rw [List.head?_eq_getElem?] at htype ⊢
    exact hle.callResults htype
  case h_8 =>
    exact bind_mono (fun _ => bind_mono (fun _ => id) fun _ => hle.elements?) (fun _ => id) htype
  case h_9 => exact hle.selectorType? htype
  case h_10 => cases htype

theorem Le.directElements? (helements : known.directElements? scope tree = some elements) :
    more.directElements? scope tree = some elements := by
  unfold Knowledge.directElements? at helements ⊢
  split at helements
  case h_1 => exact hle.nameElements? helements
  case h_2 => exact helements
  case h_3 | h_4 => exact bind_mono (fun _ => id) (fun _ => hle.elements?) helements
  case h_5 => exact hle.callElements? helements
  case h_6 => exact hle.selectorElements? helements
  case h_7 => cases helements

end Step

-- ===================================================== the form, the type

/-- Where a type is told that is a collection, and the form of the expression tells
nothing of it, the form tells nothing whatever else is known. -/
def Typed (known : Knowledge) : Prop :=
  ∀ {scope : Scope} {expression : Tree} {type : TypeRef} {elements : Elements},
    known.type? scope expression = some type →
    collection? scope.context.module type = some elements →
    known.directElements? scope expression = none →
    ∀ more : Knowledge, more.directElements? scope expression = none

/-- What has a type that is a collection is known as a collection one step
later. -/
theorem isSome_elementsOf? (htype : known.type? scope tree = some type)
    (hcollection : collection? scope.context.module type = some elements) :
    (known.elementsOf? scope tree).isSome = true := by
  rw [elementsOf?, htype, Option.bind_some, hcollection]
  cases known.directElements? scope tree <;> rfl

/-- A call's results have the elements of their types. -/
theorem callElements?_of_callResults
    (hresult : ((known.callResults scope tree)[index]?).join = some type) :
    known.callElements? scope tree index = collection? scope.context.module type := by
  unfold callResults at hresult
  unfold callElements?
  split at hresult
  · next declaration hcallee =>
      rw [hcallee, Option.bind_eq_bind, Option.bind_some]
      unfold resultRefs at hresult
      split at hresult
      · cases hresult
      · next context hcontext =>
          rw [List.getElem?_map] at hresult
          obtain ⟨result, hat, hresolve⟩ :=
            Option.map_eq_some_iff.mp (Option.join_eq_some_iff.mp hresult)
          dsimp only
          rw [hat, hcontext, Option.bind_eq_bind, Option.bind_some, Option.bind_eq_bind,
            Option.bind_some, Context.elements?_of_resolve? hresolve,
            Context.module_of_ofFile? hcontext]
  · next converted hcallee =>
      rw [hcallee, Option.bind_eq_bind, Option.bind_some]
      cases index with
      | zero => rw [Option.some.inj hresult]
      | succ index => cases hresult
  · cases hresult

section Step

variable (hle : known.Le known.next)

include hle

/-- A package variable whose type is a collection is known as one. -/
theorem isSome_valueElements? (htype : known.valueType? module spec = some type)
    (hcollection : collection? module type = some elements) :
    (known.next.valueElements? module spec).isSome = true := by
  obtain ⟨context, hcontext, hrest⟩ := Option.bind_eq_some_iff.mp htype
  have hmodule := Context.module_of_ofFile? hcontext
  unfold valueElements?
  rw [hcontext, Option.bind_eq_bind, Option.bind_some]
  split at hrest
  · rw [Context.elements?_of_resolve? hrest, hmodule, hcollection]
    rfl
  · have hcall (call : Tree)
        (hresult : ((known.callResults (.ofContext context) call)[spec.index]?).join = some type) :
        ∃ other, known.next.callElements? (.ofContext context) call spec.index = some other
          ∧ True := by
      refine ⟨elements, ?_, trivial⟩
      rw [callElements?_of_callResults (hle.callResults hresult)]
      exact hmodule ▸ hcollection
    have hexpression (value : Tree) (hvalue : known.type? (.ofContext context) value = some type) :
        ∃ other, known.next.elements? (.ofContext context) value = some other ∧ True := by
      have hsome := isSome_elementsOf? hvalue (hmodule ▸ hcollection)
      obtain ⟨other, hother⟩ := Option.isSome_iff_exists.mp hsome
      exact ⟨other, hother, trivial⟩
    obtain ⟨other, hother, -⟩ := exists_ofValue? hcall hexpression hrest
    dsimp only
    rw [hother]
    rfl

/-- A name whose type is a collection is known as one, or is a variable of which no
elements are known. -/
theorem nameElements?_eq_none (htype : known.nameType? scope name = some type)
    (hcollection : collection? scope.context.module type = some elements)
    (hnone : known.next.nameElements? scope name = none) (more : Knowledge) :
    more.nameElements? scope name = none := by
  unfold nameType? at htype
  unfold nameElements? at hnone ⊢
  cases hlocal : scope.local? name with
  | some found =>
      rw [hlocal] at hnone
      exact hnone
  | none =>
      rw [hlocal] at htype hnone
      obtain ⟨spec, hspec, hvalue⟩ := Option.bind_eq_some_iff.mp htype
      have hsome := isSome_valueElements? hle hvalue hcollection
      dsimp only at hnone
      rw [hspec, Option.bind_some] at hnone
      rw [hnone] at hsome
      cases hsome

/-- A selection whose type is a collection is known as one. -/
theorem isSome_selectorElements? (htype : known.selectorType? scope tree = some type)
    (hcollection : collection? scope.context.module type = some elements) :
    (known.next.selectorElements? scope tree).isSome = true := by
  obtain ⟨operand, hoperand, hrest⟩ := Option.bind_eq_some_iff.mp htype
  obtain ⟨word, hword, hrest⟩ := Option.bind_eq_some_iff.mp hrest
  unfold selectorElements?
  rw [hoperand, Option.bind_eq_bind, Option.bind_some, hword, Option.bind_eq_bind, Option.bind_some]
  dsimp only
  split at hrest
  · obtain ⟨spec, hspec, hvalue⟩ := Option.bind_eq_some_iff.mp hrest
    rw [hspec, Option.bind_some]
    exact isSome_valueElements? hle hvalue hcollection
  · obtain ⟨owner, howner, hrest⟩ := Option.bind_eq_some_iff.mp hrest
    obtain ⟨field, hfield, hresolve⟩ := Option.bind_eq_some_iff.mp hrest
    rw [hle.type? howner, Option.bind_eq_bind, Option.bind_some, hfield, Option.bind_eq_bind,
      Option.bind_some, Context.elements?_of_resolve? hresolve,
      (within_of_field? hfield).module_eq, hcollection]
    rfl

/-- One step on, the form tells of every collection that the type tells of, if it
ever does. -/
theorem typed_next : known.next.Typed := by
  intro scope expression type elements htype hcollection hnone more
  have htype : known.typeOf? scope expression = some type := htype
  -- where the form tells something, there is nothing to show
  have htold {told : Option Elements} (hsome : told.isSome = true) (hnone : told = none) :
      more.directElements? scope expression = none := by
    rw [hnone] at hsome
    cases hsome
  unfold typeOf? at htype
  unfold directElements? at hnone
  cases hkind : expression.kind with
  | identifier =>
      rw [hkind] at htype hnone
      rw [directElements?, hkind]
      exact nameElements?_eq_none hle htype hcollection hnone more
  | compositeLiteral =>
      rw [hkind] at htype hnone
      obtain ⟨node, hnode, hresolve⟩ := Option.bind_eq_some_iff.mp htype
      refine htold ?_ hnone
      rw [hnode, Option.bind_some, Context.elements?_of_resolve? hresolve, hcollection]
      rfl
  | parenthesizedExpression =>
      rw [hkind] at htype hnone
      obtain ⟨inner, hinner, htype⟩ := Option.bind_eq_some_iff.mp htype
      refine htold ?_ hnone
      rw [hinner, Option.bind_some]
      exact isSome_elementsOf? htype hcollection
  | callExpression =>
      rw [hkind] at htype hnone
      dsimp only at htype
      rw [List.head?_eq_getElem?] at htype
      refine htold ?_ hnone
      rw [callElements?_of_callResults (hle.callResults htype), hcollection]
      rfl
  | selectorExpression =>
      rw [hkind] at htype hnone
      exact htold (isSome_selectorElements? hle htype hcollection) hnone
  | sliceExpression =>
      rw [hkind] at htype
      cases htype
  | _ => rw [directElements?, hkind]

end Step

/-- What is told with what is known is told with what more is known, if no form
tells late of what a type told of. -/
theorem next_le_next (hle : known.Le more) (htyped : known.Typed) : known.next.Le more.next := by
  refine ⟨hle.typeOf?, fun {scope expression elements} helements => ?_⟩
  rcases Option.or_eq_some_iff.mp helements with hdirect | ⟨hnone, hnamed⟩
  · exact Option.or_eq_some_iff.mpr (.inl (hle.directElements? hdirect))
  · obtain ⟨type, htype, hcollection⟩ := Option.bind_eq_some_iff.mp hnamed
    refine Option.or_eq_some_iff.mpr (.inr ⟨htyped htype hcollection hnone more, ?_⟩)
    exact Option.bind_eq_some_iff.mpr ⟨type, hle.type? htype, hcollection⟩

theorem le_and_typed_within (budget : Nat) :
    (within budget).Le (within (budget + 1)) ∧ (within budget).Typed := by
  induction budget with
  | zero => exact ⟨⟨nofun, nofun⟩, nofun⟩
  | succ budget ih => exact ⟨next_le_next ih.1 ih.2, typed_next ih.1⟩

/-- What is told within a budget is told within any that is no smaller. -/
theorem le_within {fewer budget : Nat} (hle : fewer ≤ budget) :
    (within fewer).Le (within budget) := by
  induction hle with
  | refl => exact ⟨id, id⟩
  | step _ ih =>
      obtain ⟨hnext, -⟩ := le_and_typed_within _
      exact ⟨fun htype => hnext.type? (ih.type? htype),
        fun helements => hnext.elements? (ih.elements? helements)⟩

end Knowledge

-- ============================================================ the budget

/-- Whatever inference tells with a budget, of the type of an expression or of its
elements, it tells with a larger one. -/
theorem within_succ_of_within (scope : Scope) (expression : Tree) (budget : Nat) :
    (∀ type, (Knowledge.within budget).type? scope expression = some type →
        (Knowledge.within (budget + 1)).type? scope expression = some type)
      ∧ ∀ elements, (Knowledge.within budget).elements? scope expression = some elements →
        (Knowledge.within (budget + 1)).elements? scope expression = some elements := by
  obtain ⟨hle, -⟩ := Knowledge.le_and_typed_within budget
  exact ⟨fun _ => hle.type?, fun _ => hle.elements?⟩

/-- Variables that are initialised with each other, and a type of its own
elements. -/
def chainText : List Char :=
  ("package chain\n\ntype Chain []Chain\n\nvar first, second = second, first\n\n"
    ++ "var third = Chain\x7b\x7d\n\nfunc Use() Chain \x7b return third[0] \x7d\n").toList

/-- The disk with the variables on it. -/
def chainDisk : Disk where
  entries := [(["chain"], .directory), (["chain", "a.go"], .file (.text chainText)),
    (["chain", "go.mod"], .file (.text "module chain\n".toList))]

/-- The module of the variables. -/
def chain : Module :=
  moduleOf chainDisk ["chain"] "chain" ([(["chain", "a.go"], chainText)].filterMap parsedFile?)

/-- The scope of the function, and the first node of a kind in it. -/
def chainUse? (kind : Kind) : Option (Scope × Tree) := do
  let package ← chain.package? "chain"
  let function ← package.findFunction? "Use"
  let context ← Context.ofFile? chain function.file
  let node ← function.node.preorder.find? (·.kind == kind)
  return (.ofFunction context function.node, node)

/-- An element of the collection has a type with a budget of three, hence with one
of four; two are too few. -/
theorem within_succ_of_within_chain : load chainDisk "/chain" = .ok chain
    ∧ ∃ scope expression, chainUse? .indexExpression = some (scope, expression)
      ∧ (Knowledge.within 2).type? scope expression = none
      ∧ (Knowledge.within 3).type? scope expression = some ⟨"chain", "Chain", false⟩
      ∧ (Knowledge.within 4).type? scope expression = some ⟨"chain", "Chain", false⟩ := by
  have hload : load chainDisk "/chain" = .ok chain := by
    rw [chain, chainDisk, show chainText = _ from
      Text.toList_append_literal String.toList_ofList]
    refine load_of_ordered ?_ ?_ ?_ ?_ ?_ <;> decide +kernel
  have htold : (chainUse? .indexExpression).map (fun (scope, expression) =>
      ((Knowledge.within 2).type? scope expression, (Knowledge.within 3).type? scope expression))
        = some (none, some ⟨"chain", "Chain", false⟩) := by
    unfold chainUse?
    rw [chain, chainDisk, show chainText = _ from
      Text.toList_append_literal String.toList_ofList]
    decide +kernel
  obtain ⟨⟨scope, expression⟩, huse, htold⟩ := Option.map_eq_some_iff.mp htold
  obtain ⟨htwo, hthree⟩ := Prod.mk.inj htold
  exact ⟨hload, scope, expression, huse, htwo, hthree,
    (within_succ_of_within scope expression 3).1 _ hthree⟩

end Assay.Typing
