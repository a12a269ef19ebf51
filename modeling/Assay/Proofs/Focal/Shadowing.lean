/-
Shadowing. Where a name is a variable's, nothing else stands behind it in the
body: it is no import, a call of it calls no function of the package, its type
is the variable's and not that of a package variable, and the closure refers to
that type and to the type's members only (`Shadowed`).

So what is bound shadows what the package declares exactly as far as bindings
are read. Where none of a name's bindings is, the name stands for the package's
function, however the function under test uses it.
-/
import Assay.Proofs.Focal.Direct
import Assay.Proofs.Typing.Binding

namespace Assay.Typing

open Assay.Syntax Assay.Source

variable {scope : Scope} {node : Tree} {name : String}

-- ============================================================== inference

theorem Scope.isPackageName_of_isLocal (hlocal : scope.isLocal name = true) :
    scope.isPackageName name = false := by
  rw [isPackageName, hlocal]
  rfl

theorem Scope.packageOperand?_of_isLocal (hlocal : scope.isLocal (scope.text node) = true) :
    scope.packageOperand? node = none := by
  rw [packageOperand?, hlocal]
  simp

namespace Knowledge

theorem namedCallee?_of_isLocal (hlocal : scope.isLocal name = true) :
    namedCallee? scope name = none :=
  if_pos hlocal

theorem nameType?_of_isLocal (known : Knowledge) (hlocal : scope.isLocal name = true) :
    known.nameType? scope name = scope.localType? name := by
  obtain ⟨about, habout⟩ := Option.isSome_iff_exists.mp hlocal
  rw [nameType?, Scope.localType?, habout]
  rfl

theorem nameElements?_of_isLocal (known : Knowledge) (hlocal : scope.isLocal name = true) :
    known.nameElements? scope name = (scope.local? name).bind (·.elements) := by
  obtain ⟨about, habout⟩ := Option.isSome_iff_exists.mp hlocal
  rw [nameElements?, habout]
  rfl

end Knowledge

section

variable (hkind : node.kind = .identifier) (hlocal : scope.isLocal (scope.text node) = true)

include hkind hlocal

theorem Knowledge.typeOf?_of_isLocal (known : Knowledge) :
    known.typeOf? scope node = scope.localType? (scope.text node) := by
  rw [typeOf?, hkind]
  exact known.nameType?_of_isLocal hlocal

theorem Knowledge.directElements?_of_isLocal (known : Knowledge) :
    known.directElements? scope node = (scope.local? (scope.text node)).bind (·.elements) := by
  rw [directElements?, hkind]
  exact known.nameElements?_of_isLocal hlocal

theorem Scope.infer?_of_isLocal : scope.infer? node = scope.localType? (scope.text node) :=
  Knowledge.typeOf?_of_isLocal hkind hlocal (Knowledge.within (inferenceBudget - 1))

theorem Scope.inferElements?_of_isLocal :
    scope.inferElements? node = ((scope.local? (scope.text node)).bind (·.elements)).or
      ((scope.localType? (scope.text node)).bind (collection? scope.context.module)) := by
  rw [← Knowledge.directElements?_of_isLocal hkind hlocal (Knowledge.within (inferenceBudget - 1)),
    ← Knowledge.typeOf?_of_isLocal hkind hlocal (Knowledge.within (inferenceBudget - 2))]
  rfl

end

/-- A call of a variable, in parentheses or not, calls no function that is
declared and converts to no type. -/
theorem Knowledge.callee?_of_isLocal (known : Knowledge) {call callee : Tree}
    (hcallee : call.part? .function = some callee) (hkind : node.kind = .identifier)
    (hnode : callee = node
      ∨ callee.kind = .parenthesizedExpression ∧ callee.firstNamed? = some node)
    (hlocal : scope.isLocal (scope.text node) = true) : known.callee? scope call = none := by
  unfold callee?
  rw [hcallee, Option.bind_eq_bind, Option.bind_some]
  rcases hnode with rfl | ⟨hparentheses, hinner⟩
  · rw [hkind]
    exact namedCallee?_of_isLocal hlocal
  · rw [hparentheses]
    simp [hinner, hkind, namedCallee?_of_isLocal hlocal]

end Assay.Typing

namespace Assay.Focal

open Assay.Syntax Assay.Source Assay.Typing

variable {context : Context} {scope : Scope} {node : Tree} {name : String}

-- ============================================================== shadowing

namespace Reference

/-- What the selection of a member refers to: a method, or the type of a
field. -/
def ofMember (module : Module) (owner : TypeRef) (name : String) : List Reference :=
  match method? module owner name with
  | some method => ofMethod owner method
  | none =>
    ((field? module owner name).bind fun field =>
      (field.context.resolve? field.type).bind (toTypeRef? module)).toList

theorem ofValueSelector_eq_flatMap (scope : Scope) (operand : Tree) (name : String) :
    ofValueSelector scope operand name
      = (scope.infer? operand).toList.flatMap (ofMember scope.context.module · name) := by
  rw [ofValueSelector]
  cases scope.infer? operand with
  | none => rfl
  | some owner => exact (List.append_nil _).symm

end Reference

/-- Nothing but a variable stands behind the name, wherever it occurs. -/
structure Shadowed (scope : Scope) (name : String) : Prop where
  /-- It is no import. -/
  notImport : scope.isPackageName name = false
  /-- A call of it calls no declared function and converts to no type. -/
  notCalled : ∀ {call callee node : Tree}, call.part? .function = some callee →
    callee = node ∨ callee.kind = .parenthesizedExpression ∧ callee.firstNamed? = some node →
    node.kind = .identifier → scope.text node = name → inferred.callee? scope call = none
  /-- Its type is the variable's. -/
  type : ∀ {node : Tree}, node.kind = .identifier → scope.text node = name →
    scope.infer? node = scope.localType? name
  /-- Its elements are the variable's, or those of the variable's type. -/
  elements : ∀ {node : Tree}, node.kind = .identifier → scope.text node = name →
    scope.inferElements? node = ((scope.local? name).bind (·.elements)).or
      ((scope.localType? name).bind (collection? scope.context.module))
  /-- It refers to the type of the variable. -/
  reference : ∀ {visit : Tree.Visit} {reference : Reference}, visit.tree.kind = .identifier →
    scope.text visit.tree = name → reference ∈ Reference.ofVisit scope visit →
    ∃ type, scope.localType? name = some type
      ∧ Reference.toTypeRef? scope.context.module type = some reference
  /-- A selection from it refers to a member of that type. -/
  selection : ∀ {visit : Tree.Visit} {operand : Tree} {reference : Reference},
    visit.tree.kind = .selectorExpression → visit.tree.part? .operand = some operand →
    operand.kind = .identifier → scope.text operand = name →
    reference ∈ Reference.ofVisit scope visit →
    ∃ owner field, scope.localType? name = some owner
      ∧ reference ∈ Reference.ofMember scope.context.module owner field

theorem shadowed_of_isLocal (hlocal : scope.isLocal name = true) : Shadowed scope name where
  notImport := Scope.isPackageName_of_isLocal hlocal
  notCalled := by
    rintro call callee node hcallee hnode hkind rfl
    exact Knowledge.callee?_of_isLocal inferred hcallee hkind hnode hlocal
  type := by
    rintro node hkind rfl
    exact Scope.infer?_of_isLocal hkind hlocal
  elements := by
    rintro node hkind rfl
    exact Scope.inferElements?_of_isLocal hkind hlocal
  reference := by
    rintro visit reference hkind rfl hreference
    rw [Reference.ofVisit, hkind] at hreference
    dsimp only at hreference
    split at hreference
    · cases hreference
    · rw [Reference.ofName?, if_pos hlocal, Option.mem_toList] at hreference
      exact Option.bind_eq_some_iff.mp hreference
  selection := by
    rintro visit operand reference hkind hoperand hname rfl hreference
    rw [Reference.ofVisit, hkind] at hreference
    dsimp only at hreference
    rw [Reference.ofSelector, hoperand] at hreference
    split at hreference
    · next field hsome hfield =>
        obtain rfl := Option.some.inj hsome
        dsimp only at hreference
        rw [Scope.packageOperand?_of_isLocal hlocal, Scope.isPackageName_of_isLocal hlocal,
          Bool.and_false] at hreference
        have hmember : reference ∈ Reference.ofValueSelector scope operand (scope.text field) :=
          hreference
        rw [Reference.ofValueSelector_eq_flatMap, Scope.infer?_of_isLocal hname hlocal] at hmember
        obtain ⟨owner, howner, hmember⟩ := List.mem_flatMap.mp hmember
        exact ⟨owner, scope.text field, Option.mem_toList.mp howner, hmember⟩
    · cases hreference

/-- A name that is no variable's and no import stands for the function that the
package declares. -/
theorem ofName?_of_not_isLocal {declaration : Declaration} (hcontext : scope.context = context)
    (htext : context.text node = name) (hlocal : scope.isLocal name = false)
    (himport : context.module.isImportName context.file name = false)
    (hfunction : context.package.findFunction? name = some declaration) :
    Reference.ofName? scope node = some (Reference.toFunction context.package declaration none) := by
  subst hcontext htext
  rw [Reference.ofName?, Scope.isPackageName, Scope.text]
  simp [hlocal, himport, hfunction]

/-- A name is a variable's in a function exactly when some binding of it is read;
then nothing else stands behind it in the body. Else it stands there for the function
of this name in the package, if there is one, and however the function binds it. -/
theorem variables_shadow (context : Context) (function : Tree) (hname : name ≠ "_") :
    ((Scope.ofFunction context function).isLocal name = true
        ↔ ∃ form word, Binds context.file function form word ∧ form.Reads word
            ∧ context.text word = name)
      ∧ ((Scope.ofFunction context function).isLocal name = true →
          Shadowed (Scope.ofFunction context function) name)
      ∧ ((Scope.ofFunction context function).isLocal name = false →
          context.module.isImportName context.file name = false →
          ∀ declaration, context.package.findFunction? name = some declaration →
          ∀ node, context.text node = name →
            Reference.ofName? (Scope.ofFunction context function) node
              = some (Reference.toFunction context.package declaration none)) := by
  have hiff := isLocal_ofFunction_iff context function name
  rw [and_iff_right hname] at hiff
  refine ⟨hiff, shadowed_of_isLocal, fun hlocal himport declaration hfunction node htext => ?_⟩
  exact ofName?_of_not_isLocal (Scope.context_ofFunction context function) htext hlocal himport
    hfunction

-- ================================================================ a till

/-- Three functions, and one that names its variables like them: a parameter, a
result of a literal, and a received value. -/
def tillText : List Char :=
  ("package till\nfunc sale() \x7b\x7d\nfunc sum() \x7b\x7d\nfunc one() \x7b\x7d\n"
    ++ "func Use(sale chan int) \x7b\n\t_ = func() (sum int) \x7b return \x7d\n"
    ++ "\tselect \x7b\n\tcase one := <-sale:\n\t\t_ = one\n\t\x7d\n\x7d\n").toList

/-- A module of one file. -/
def tillDisk : Disk :=
  ⟨[(["till"], .directory), (["till", "a.go"], .file (.text tillText)),
    (["till", "go.mod"], .file (.text "module till\n".toList))]⟩

/-- The module, loaded. -/
def till : Module := moduleOf tillDisk ["till"] "till"
  ([(["till", "a.go"], tillText)].filterMap parsedFile?)

theorem load_till : load tillDisk "/till" = .ok till := by
  rw [till, tillDisk, show tillText = _ from
    Text.toList_append_literal (Text.toList_append_literal String.toList_ofList)]
  refine load_of_ordered ?_ ?_ ?_ ?_ ?_ <;> decide +kernel

/-- The parameter is a variable wherever it occurs. -/
theorem variables_shadow_till : load tillDisk "/till" = .ok till
    ∧ ∃ target, resolve till "a.go" "Use" = .ok target
      ∧ Shadowed (target.bodyScope till) "sale" := by
  have hfits : (resolve till "a.go" "Use").toOption.any (fun target =>
      (target.declaration.node.part? .parameters).any fun list => list.kind == .parameterList
        && (listedNames list).any (target.declaration.file.text · == "sale")) = true := by
    rw [till, tillDisk, show tillText = _ from
      Text.toList_append_literal (Text.toList_append_literal String.toList_ofList)]
    decide +kernel
  simp only [Option.any_eq_true, Bool.and_eq_true, beq_iff_eq, List.any_eq_true] at hfits
  obtain ⟨target, htarget, list, hlist, hkind, word, hword, htext⟩ := hfits
  have hbinds : Binds target.declaration.file target.declaration.node .signature word :=
    .signature (by decide) hlist hkind hword
  obtain ⟨hlocal, hshadowed, -⟩ := variables_shadow
    ⟨till, target.package, target.declaration.file⟩ target.declaration.node
    (by decide : "sale" ≠ "_")
  exact ⟨load_till, target, eq_ok_of_toOption htarget,
    hshadowed (hlocal.mpr ⟨.signature, word, hbinds, trivial, htext⟩)⟩

/-- The result of the literal and the received value are bound, and yet their
names are taken for the functions. -/
theorem uses_bound_till : load tillDisk "/till" = .ok till
    ∧ ∃ target, resolve till "a.go" "Use" = .ok target
      ∧ (∃ word, Binds target.declaration.file target.declaration.node .literalResult word
          ∧ target.declaration.file.text word = "sum")
      ∧ (∃ word, Binds target.declaration.file target.declaration.node .received word
          ∧ target.declaration.file.text word = "one")
      ∧ (target.bodyScope till).isLocal "sum" = false
      ∧ (target.bodyScope till).isLocal "one" = false
      ∧ (uses till target 1).keys = ["till.one", "till.sum"] := by
  have hfits : (resolve till "a.go" "Use").toOption.any (fun target =>
      ((target.declaration.node.part? .body).any fun body => body.preorder.any fun node =>
          node.kind == .funcLiteral && (node.part? .result).any fun list =>
            list.kind == .parameterList
              && (listedNames list).any (target.declaration.file.text · == "sum"))
        && ((target.declaration.node.part? .body).any fun body => body.preorder.any fun node =>
          node.kind == .receiveStatement && (isDefined target.declaration.file node
            && (Scope.listed node .left).any (target.declaration.file.text · == "one")))
        && (!(target.bodyScope till).isLocal "sum" && (!(target.bodyScope till).isLocal "one"
          && (uses till target 1).keys == ["till.one", "till.sum"]))) = true := by
    rw [till, tillDisk, show tillText = _ from
      Text.toList_append_literal (Text.toList_append_literal String.toList_ofList)]
    decide +kernel
  simp only [Option.any_eq_true, Bool.and_eq_true, Bool.not_eq_true', beq_iff_eq,
    List.any_eq_true] at hfits
  obtain ⟨target, htarget, ⟨hsum, hone⟩, hlocal⟩ := hfits
  refine ⟨load_till, target, eq_ok_of_toOption htarget, ?_, ?_, hlocal⟩
  · obtain ⟨body, hbody, node, hnode, hkind, list, hlist, hparameters, word, hword, htext⟩ := hsum
    exact ⟨word, .inside hbody hnode (.literalResult hkind hlist hparameters hword), htext⟩
  · obtain ⟨body, hbody, node, hnode, hkind, hdefine, word, hword, htext⟩ := hone
    exact ⟨word, .inside hbody hnode (.received hkind hdefine hword), htext⟩

end Assay.Focal
