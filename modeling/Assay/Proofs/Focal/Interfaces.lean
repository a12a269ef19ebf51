/-
Interface methods in a closure. A method that an interface lists has no body, so a
prompt shows it only within the interface. Such a method comes into a closure by a
selection from a value (`Selection`), and there are two ways for the interface to
come along: a selection that has the method by embedding brings the interface itself,
and otherwise it is the type of the operand, which the operand leads to unless it
hides it.

So the interface is missing at most for operands that hide their type, and calls of
functions do.
-/
import Assay.Proofs.Focal.Operands

namespace Assay.Typing

open Assay.Syntax Assay.Source

variable {module : Module} {package : Package} {spec declaration : Declaration} {name : String}
  {owner : TypeRef}

/-- An operand that is not the name of an import stands for no package. -/
theorem Scope.packageOperand?_eq_none {scope : Scope} {operand : Tree}
    (hvalue : ¬(operand.kind = .identifier ∧ scope.isPackageName (scope.text operand) = true)) :
    scope.packageOperand? operand = none := by
  rw [packageOperand?]
  split
  · next hname =>
      rw [Bool.and_eq_true, decide_eq_true_iff, Bool.not_eq_true'] at hname
      have himport : scope.context.module.isImportName scope.context.file (scope.text operand)
          = false := by
        simpa [isPackageName, hname] using hvalue
      refine List.findSome?_eq_none_iff.mpr fun imported hmem => if_neg fun hcalled => ?_
      exact Bool.eq_false_iff.mp himport (List.any_eq_true.mpr ⟨imported, hmem, hcalled⟩)
  · rfl

/-- A method of an interface is listed by a type that is declared, and is one. -/
theorem method?_interface
    (hmethod : method? module owner name = some (.interface package spec declaration)) :
    ∃ declaring, typeSpec? module declaring = some (package, spec)
      ∧ interfaceMethod? spec name = some declaration := by
  obtain ⟨declaring, found, held, hdeclared, hown⟩ := search_some hmethod
  unfold ownMethod? at hown
  split at hown
  · obtain ⟨listed, hlisted, hsame⟩ := Option.map_eq_some_iff.mp hown
    cases hsame
    exact ⟨declaring, hdeclared, hlisted⟩
  · obtain ⟨concrete, -, hsame⟩ := Option.map_eq_some_iff.mp hown
    cases hsame

end Assay.Typing

namespace Assay.Focal

open Assay.Syntax Assay.Source Assay.Typing

variable {module : Module} {package : Package} {function : Declaration} {target : Target}
  {root path query : String} {disk : Disk} {depth : Nat}

-- ============================================================ selections

/-- The selection of a method that an interface lists, in the body of a function. -/
structure Selection (module : Module) (function : Declaration) where
  context : Context
  body : Tree
  visit : Tree.Visit
  operand : Tree
  field : Tree
  owner : TypeRef
  package : Package
  spec : Declaration
  interface : String
  method : Declaration
  hcontext : Context.ofFile? module function.file = some context
  hbody : function.part? .body = some body
  hoccurs : Occurs [] body visit
  hkind : visit.tree.kind = .selectorExpression
  hoperand : visit.tree.part? .operand = some operand
  hfield : visit.tree.part? .field = some field
  /-- The operand is no import. -/
  hvalue : ¬(operand.kind = .identifier
    ∧ (Scope.ofFunction context function.node).isPackageName (context.text operand) = true)
  howner : (Scope.ofFunction context function.node).infer? operand = some owner
  hmethod : method? module owner (context.text field) = some (.interface package spec method)
  hinterface : spec.name? = some interface

namespace Selection

variable (selection : Selection module function)

/-- The variables at the selection. -/
def scope : Scope := Scope.ofFunction selection.context function.node

/-- The method that is selected. -/
def reference : Reference :=
  .toInterfaceMethod selection.package selection.interface selection.method

/-- The interface that lists it. -/
def type : Reference := .toType selection.package selection.spec

/-- The operand has the method from an interface that its type embeds. -/
def IsInherited : Prop :=
  selection.interface ≠ selection.owner.name ∨ selection.package.id ≠ selection.owner.package

/-- The interface is in sight: the method is inherited from it, or the operand leads to
it. -/
def ShowsInterface : Prop :=
  selection.IsInherited ∨ ¬ Reference.Hides selection.scope selection.operand

/-- The interface lists the method. -/
theorem method_mem : selection.method ∈ methodElems selection.spec := by
  obtain ⟨declaring, -, hlisted⟩ := method?_interface selection.hmethod
  exact (interfaceMethod?_some hlisted).1

/-- What the selection refers to. -/
theorem ofVisit_eq : Reference.ofVisit selection.scope selection.visit
    = Reference.ofMethod selection.owner
        (.interface selection.package selection.spec selection.method) := by
  have hcontext : selection.scope.context = selection.context := Scope.context_ofFunction _ _
  have hmodule := (Context.within_of_ofFile? selection.hcontext).module_eq
  have hvalue : ¬(selection.operand.kind = .identifier
      ∧ selection.scope.isPackageName (selection.scope.text selection.operand) = true) := by
    rw [Scope.text, hcontext]
    exact selection.hvalue
  have howner : selection.scope.infer? selection.operand = some selection.owner :=
    selection.howner
  have hmethod : method? selection.scope.context.module selection.owner
      (selection.scope.text selection.field)
        = some (.interface selection.package selection.spec selection.method) := by
    rw [Scope.text, hcontext, hmodule]
    exact selection.hmethod
  simp [Reference.ofVisit, selection.hkind, Reference.ofSelector, selection.hoperand,
    selection.hfield, Scope.packageOperand?_eq_none hvalue, hvalue, Reference.ofValueSelector,
    howner, hmethod]

/-- Nodes of the body refer to what the function refers to. -/
theorem mem_inBody {visit : Tree.Visit} {reference : Reference}
    (hoccurs : Occurs [] selection.body visit)
    (hrefers : reference ∈ Reference.ofVisit selection.scope visit) :
    reference ∈ Reference.inBody module function :=
  Reference.mem_inBody_iff.mpr
    ⟨_, _, visit, selection.hcontext, selection.hbody, hoccurs, hrefers⟩

/-- Where the method is not inherited, the interface is the type of the operand. -/
theorem toTypeRef?_owner (hindexed : Indexed module) (hown : ¬ selection.IsInherited) :
    Reference.toTypeRef? module selection.owner = some selection.type := by
  obtain ⟨hname, hpackage⟩ := not_or.mp hown
  obtain ⟨declaring, hdeclared, -⟩ := method?_interface selection.hmethod
  obtain ⟨hloaded, hfound⟩ := typeSpec?_some hdeclared
  obtain ⟨-, -, -, hnamed⟩ := findType?_some hfound
  have hsame : declaring.name = selection.owner.name :=
    (Option.some.inj (hnamed.symm.trans selection.hinterface)).trans (not_not.mp hname)
  have htype : typeSpec? module selection.owner = some (selection.package, selection.spec) := by
    simp [typeSpec?, ← not_not.mp hpackage, hindexed _ hloaded, ← hsame, hfound]
  rw [Reference.toTypeRef?, htype]
  rfl

/-- An interface that is in sight is referred to in the body. -/
theorem type_mem_inBody (hindexed : Indexed module) (hshows : selection.ShowsInterface) :
    selection.type ∈ Reference.inBody module function := by
  by_cases hinherited : selection.IsInherited
  · -- The selection brings the interface itself.
    refine selection.mem_inBody selection.hoccurs ?_
    rw [selection.ofVisit_eq, Reference.ofMethod, selection.hinterface]
    have hcondition : (decide (selection.interface ≠ selection.owner.name)
        || decide (selection.package.id ≠ selection.owner.package)) = true := by
      simpa [IsInherited] using hinherited
    dsimp only
    rw [if_pos hcondition]
    exact List.mem_cons_of_mem _ (List.mem_singleton_self _)
  · -- The interface is the operand's type, and a node of the operand brings it.
    have hwithin := Context.within_of_ofFile? selection.hcontext
    have hscope : selection.scope.context = selection.context := Scope.context_ofFunction _ _
    have hchild := Tree.mem_children_of_part? selection.hoperand
    have hkey : Reference.isLiteralKey (selection.visit.tree.label :: selection.visit.above)
        = false :=
      Reference.isLiteralKey_cons
        (by rw [show selection.visit.tree.label.kind = _ from selection.hkind]; decide)
    obtain ⟨visit, hoccurs, hrefers⟩ := Reference.leads_of_infer?
      (by rw [hscope, hwithin.module_eq]; exact hindexed)
      (by rw [hscope, hwithin.module_eq]; exact hwithin.loaded)
      (hshows.resolve_left hinherited) hkey selection.howner
    refine selection.mem_inBody
      ((selection.hoccurs.trans (.of_mem_children hchild)).trans hoccurs) (hrefers ?_)
    rw [hscope, hwithin.module_eq, selection.toTypeRef?_owner hindexed hinherited]
    exact List.mem_singleton_self _

end Selection

-- ================================================= references without body

namespace Reference

variable {scope : Scope} {node : Tree} {visit : Tree.Visit} {reference : Reference}
  {name : String}

/-- An interface method has no body to show. -/
theorem Sourced.body_eq_none (sourced : Sourced module reference)
    {definition : FunctionDefinition} {receiver : Receiver}
    (hdefinition : reference.definition = .function definition)
    (hreceiver : definition.receiver = some receiver) (hkind : receiver.kind = .interface) :
    reference.definition.body = none := by
  cases sourced with
  | function =>
      obtain rfl := Definition.function.inj hdefinition
      cases hreceiver
  | method _ _ _ _ _ hwritten =>
      obtain rfl := Definition.function.inj hdefinition
      obtain rfl := Option.some.inj hreceiver
      exact absurd hkind (receiver?_kind_ne hwritten)
  | interfaceMethod => rfl
  | type => cases hdefinition

/-! Everything else has one. -/

theorem body_ne_none_of_toTypeRef? {type : Option TypeRef}
    (hfound : type.bind (toTypeRef? module) = some reference) :
    reference.definition.body ≠ none := by
  obtain ⟨owner, -, hfound⟩ := Option.bind_eq_some_iff.mp hfound
  obtain ⟨⟨package, spec⟩, -, rfl⟩ := Option.map_eq_some_iff.mp hfound
  exact Option.some_ne_none _

theorem body_ne_none_of_ofPackageSelector?
    (hfound : ofPackageSelector? scope package node name = some reference) :
    reference.definition.body ≠ none := by
  rw [ofPackageSelector?] at hfound
  split at hfound
  · cases hfound
    exact Option.some_ne_none _
  · cases hfound
    exact Option.some_ne_none _
  · exact body_ne_none_of_toTypeRef? hfound

theorem body_ne_none_of_ofName? (hfound : ofName? scope node = some reference) :
    reference.definition.body ≠ none := by
  rw [ofName?] at hfound
  split at hfound
  · exact body_ne_none_of_toTypeRef? hfound
  · obtain ⟨-, hfound⟩ := Option.ite_none_left_eq_some.mp hfound
    exact body_ne_none_of_ofPackageSelector? hfound

theorem exists_interface_of_ofMethod {owner : TypeRef} {method : Method}
    (hmem : reference ∈ ofMethod owner method) (hbody : reference.definition.body = none) :
    ∃ package spec declaration interface, method = .interface package spec declaration
      ∧ spec.name? = some interface
      ∧ reference = toInterfaceMethod package interface declaration := by
  cases method with
  | concrete package declaration receiver =>
      obtain rfl := List.mem_singleton.mp hmem
      cases hbody
  | interface package spec declaration =>
      rw [ofMethod] at hmem
      split at hmem
      · cases hmem
      · next interface hinterface =>
          rcases List.mem_cons.mp hmem with rfl | hmore
          · exact ⟨package, spec, declaration, interface, rfl, hinterface, rfl⟩
          · split at hmore
            · obtain rfl := List.mem_singleton.mp hmore
              cases hbody
            · cases hmore

theorem exists_interface_of_ofSelector (hmem : reference ∈ ofSelector scope node)
    (hbody : reference.definition.body = none) :
    ∃ operand field owner package spec declaration interface,
      node.part? .operand = some operand ∧ node.part? .field = some field
        ∧ ¬(operand.kind = .identifier ∧ scope.isPackageName (scope.text operand) = true)
        ∧ scope.infer? operand = some owner
        ∧ method? scope.context.module owner (scope.text field)
          = some (.interface package spec declaration)
        ∧ spec.name? = some interface
        ∧ reference = toInterfaceMethod package interface declaration := by
  rw [ofSelector] at hmem
  split at hmem
  · next operand field hoperand hfield =>
      split at hmem
      · exact (body_ne_none_of_ofPackageSelector? (Option.mem_toList.mp hmem) hbody).elim
      · obtain ⟨hvalue, hmem⟩ := List.mem_ite_nil_left.mp hmem
        rw [ofValueSelector] at hmem
        split at hmem
        · cases hmem
        · next owner howner =>
            split at hmem
            · next method hmethod =>
                obtain ⟨package, spec, declaration, interface, rfl, hinterface, hsame⟩ :=
                  exists_interface_of_ofMethod hmem hbody
                exact ⟨operand, field, owner, package, spec, declaration, interface, hoperand,
                  hfield, by simpa using hvalue, howner, hmethod, hinterface, hsame⟩
            · obtain ⟨found, -, hfound⟩ := Option.bind_eq_some_iff.mp (Option.mem_toList.mp hmem)
              exact (body_ne_none_of_toTypeRef? hfound hbody).elim
  · cases hmem

/-- Only a selection from a value refers to something without a body. -/
theorem selector_of_ofVisit (hmem : reference ∈ ofVisit scope visit)
    (hbody : reference.definition.body = none) :
    visit.tree.kind = .selectorExpression ∧ reference ∈ ofSelector scope visit.tree := by
  have hofType : reference ∉ ((scope.context.resolve? visit.tree).bind
      (toTypeRef? scope.context.module)).toList := fun hmem =>
    body_ne_none_of_toTypeRef? (Option.mem_toList.mp hmem) hbody
  rw [ofVisit] at hmem
  split at hmem
  case h_1 =>
    split at hmem
    · cases hmem
    · exact (body_ne_none_of_ofName? (Option.mem_toList.mp hmem) hbody).elim
  case h_2 =>
    split at hmem
    · cases hmem
    · exact (hofType hmem).elim
  case h_3 => exact (hofType hmem).elim
  case h_4 hkind => exact ⟨hkind, hmem⟩
  case h_5 => cases hmem

theorem exists_selection (hlisted : reference ∈ inBody module function)
    (hbody : reference.definition.body = none) :
    ∃ selection : Selection module function, selection.reference = reference := by
  obtain ⟨context, body, visit, hcontext, hpart, hoccurs, hrefers⟩ := mem_inBody_iff.mp hlisted
  obtain ⟨hkind, hrefers⟩ := selector_of_ofVisit hrefers hbody
  obtain ⟨operand, field, owner, package, spec, declaration, interface, hoperand, hfield,
    hvalue, howner, hmethod, hinterface, rfl⟩ := exists_interface_of_ofSelector hrefers hbody
  rw [Scope.text, Scope.context_ofFunction] at hvalue hmethod
  rw [(Context.within_of_ofFile? hcontext).module_eq] at hmethod
  exact ⟨⟨context, body, visit, operand, field, owner, package, spec, interface, declaration,
    hcontext, hpart, hoccurs, hkind, hoperand, hfield, hvalue, howner, hmethod, hinterface⟩, rfl⟩

end Reference

-- =========================================================== the closure

/-- What is read has an entry of its own, where declarations have distinct names. -/
theorem find?_uses_of_read (hdisk : disk.WellFormed) (hload : load disk root = .ok module)
    (hresolve : resolve module path query = .ok target) (hdistinct : NamesDistinct module)
    {reference : Reference} (hread : reference ∈ referencesRead module target depth)
    (hother : reference.definition ≠ target.toReference.definition) :
    (uses module target depth).find? reference.definition.id.text
      = some reference.definition := by
  have howned : ∀ package ∈ module.allPackages, ∀ file ∈ package.files,
      module.packageOf? file = some package := fun package hpackage file hfile =>
    ((lookups_of_load hdisk hload hpackage).2 file hfile).2.2
  have hdescribed {reference : Reference}
      (hread : reference ∈ referencesRead module target depth) :
      ∃ declaration, Describes module declaration reference.definition := by
    obtain ⟨body, -, hlisted⟩ := List.mem_flatMap.mp hread
    obtain ⟨declaration, hdescribes, -⟩ := (Reference.sourced_of_inBody hlisted).describes
    exact ⟨declaration, hdescribes⟩
  obtain ⟨declaration, hdescribes⟩ := hdescribed hread
  obtain ⟨hself, hid⟩ := describes_of_resolve hresolve
  have hne : reference.definition.id ≠ target.id := fun hsame =>
    hother (hdescribes.eq_of_id_eq howned hdistinct hself (hsame.trans hid.symm))
  obtain ⟨last, hlast, hmem, hid⟩ := exists_last hread rfl
  obtain ⟨held, hheld⟩ := hdescribed hmem
  have hfind : (uses module target depth).find? reference.definition.id.text = _ :=
    uses_eq_foldl module target depth ▸ find?_foldl_record target.id
      (referencesRead module target depth) reference.definition.id
  rw [hfind, if_neg hne, hlast]
  exact congrArg some (hheld.eq_of_id_eq howned hdistinct hdescribes hid)

/-- A method of an interface in a closure was selected in a body that is read. Where one of
these selections shows the interface, the interface is in the closure, unless it bears
the name of the function under test; and where declarations have distinct names, it is
there with its declaration. -/
theorem uses_declares_interface (hdisk : disk.WellFormed) (hload : load disk root = .ok module)
    (hresolve : resolve module path query = .ok target) (depth : Nat) {key : String}
    {definition : FunctionDefinition} {receiver : Receiver}
    (hentry : (key, .function definition) ∈ (uses module target depth).entries)
    (hreceiver : definition.receiver = some receiver) (hkind : receiver.kind = .interface) :
    (∃ function ∈ bodiesRead module target depth, ∃ selection : Selection module function,
        selection.reference.definition = .function definition)
      ∧ ∀ function ∈ bodiesRead module target depth, ∀ selection : Selection module function,
          selection.reference.definition = .function definition →
            selection.interface = receiver.typeName
              ∧ selection.package.reference = definition.package
              ∧ selection.method ∈ methodElems selection.spec
              ∧ (selection.ShowsInterface →
                (selection.type.definition.id.text ∈ (uses module target depth).keys
                    ↔ selection.type.definition.id ≠ target.id)
                  ∧ (NamesDistinct module →
                    (uses module target depth).find? selection.type.definition.id.text
                      = some selection.type.definition)) := by
  have hindexed := indexed_of_load hdisk hload
  refine ⟨?_, fun function hread selection hsame => ?_⟩
  · obtain ⟨function, hread, reference, hlisted, -, hsame⟩ := exists_reference_of_mem_uses hentry
    have hdefinition : reference.definition = .function definition := (Prod.mk.inj hsame).2.symm
    have hbody := (Reference.sourced_of_inBody hlisted).body_eq_none hdefinition hreceiver hkind
    obtain ⟨selection, rfl⟩ := Reference.exists_selection hlisted hbody
    exact ⟨function, hread, selection, hdefinition⟩
  · have hsame := Definition.function.inj hsame
    subst hsame
    obtain rfl : ⟨selection.interface, .interface⟩ = receiver := Option.some.inj hreceiver
    refine ⟨rfl, rfl, selection.method_mem, fun hshows => ?_⟩
    have htype : selection.type ∈ referencesRead module target depth :=
      List.mem_flatMap.mpr ⟨function, hread, selection.type_mem_inBody hindexed hshows⟩
    refine ⟨?_, fun hdistinct => ?_⟩
    · rw [text_mem_keys_uses, and_iff_left ⟨_, htype, rfl⟩]
    · exact find?_uses_of_read hdisk hload hresolve hdistinct htype nofun

-- ================================================================ a shop

/-- Two functions that select a method of an interface: from what a function returns,
and from a parameter. -/
def shopText : List Char :=
  ("package shop\n\ntype Repo interface \x7b\n\tFind() int\n\x7d\n\n"
    ++ "func open() Repo \x7b return nil \x7d\n\n"
    ++ "func Use() int \x7b return open().Find() \x7d\n\n"
    ++ "func Ask(repo Repo) int \x7b return repo.Find() \x7d\n").toList

/-- A module of one file. -/
def shopDisk : Disk where
  entries := [(["shop"], .directory), (["shop", "a.go"], .file (.text shopText)),
    (["shop", "go.mod"], .file (.text "module shop\n".toList))]

/-- The module, loaded. -/
def shop : Module :=
  moduleOf shopDisk ["shop"] "shop" ([(["shop", "a.go"], shopText)].filterMap parsedFile?)

theorem load_shop : load shopDisk "/shop" = .ok shop := by
  rw [shop, shopDisk, show shopText = _ from Text.toList_append_literal
    (Text.toList_append_literal (Text.toList_append_literal String.toList_ofList))]
  refine load_of_ordered ?_ ?_ ?_ ?_ ?_ <;> decide +kernel

/-- What a prompt is told of the method. -/
def findDefinition : FunctionDefinition where
  id := ⟨"shop.Repo.Find"⟩
  name := "Find"
  package := ⟨"shop", "shop"⟩
  file := some "/shop/a.go"
  receiver := some ⟨"Repo", .interface⟩
  signature := "Find() int"
  body := none

/-- What a prompt is told of the interface. -/
def repoDefinition : TypeDefinition where
  id := ⟨"shop.Repo"⟩
  name := "Repo"
  package := ⟨"shop", "shop"⟩
  file := "/shop/a.go"
  body := "type Repo interface \x7b\n\tFind() int\n\x7d"

/-- A selection from a variable finds the method of the shop's interface. -/
def isFindOfVariable (scope : Scope) (visit : Tree.Visit) : Bool :=
  visit.tree.kind == .selectorExpression
    && (visit.tree.part? .operand).any fun operand =>
      operand.kind == .identifier && operand.children.isEmpty
        && scope.isLocal (scope.text operand)
        && (visit.tree.part? .field).any fun field =>
          (scope.infer? operand).any fun owner =>
            (method? scope.context.module owner (scope.text field)).any fun
              | .interface package spec method => spec.name? == some "Repo"
                && decide ((Reference.toInterfaceMethod package "Repo" method).definition
                  = .function findDefinition)
                && decide ((Reference.toType package spec).definition = .type repoDefinition)
              | .concrete _ _ _ => false

/-- What the shop declares, and what its two functions select. -/
theorem shop_fits : ((declarations shop).map (·.id)).Nodup
    ∧ (resolve shop "a.go" "Ask").toOption.any (fun target =>
      decide (("shop.Repo.Find", .function findDefinition) ∈ (uses shop target 1).entries)
        && (Context.ofFile? shop target.declaration.file).any fun context =>
          (target.declaration.part? .body).any fun body => (body.visits []).any
            (isFindOfVariable (Scope.ofFunction context target.declaration.node))) = true
    ∧ ((shop.package? "shop").bind (·.findType? "Repo")).isSome = true
    ∧ (resolve shop "a.go" "Use").toOption.any (fun target =>
      decide (("shop.Repo.Find", .function findDefinition) ∈ (uses shop target 1).entries)
        && (uses shop target 1).keys == ["shop.Repo.Find", "shop.open"]) = true := by
  rw [shop, shopDisk, show shopText = _ from Text.toList_append_literal
    (Text.toList_append_literal (Text.toList_append_literal String.toList_ofList))]
  decide +kernel

theorem exists_selection_of_variable {context : Context} {body : Tree} {visit : Tree.Visit}
    (hcontext : Context.ofFile? shop function.file = some context)
    (hbody : function.part? .body = some body) (hvisit : visit ∈ body.visits [])
    (hfind : isFindOfVariable (Scope.ofFunction context function.node) visit = true) :
    ∃ selection : Selection shop function,
      selection.reference.definition = .function findDefinition ∧ selection.ShowsInterface
        ∧ selection.type.definition = .type repoDefinition := by
  simp only [isFindOfVariable, Bool.and_eq_true, Option.any_eq_true, beq_iff_eq,
    List.isEmpty_iff] at hfind
  obtain ⟨hkind, operand, hoperand, ⟨⟨hname, hleaf⟩, hlocal⟩, field, hfield, owner, howner, method,
    hmethod, hfits⟩ := hfind
  cases method with
  | concrete => cases hfits
  | interface package spec method =>
      simp only [Bool.and_eq_true, beq_iff_eq, decide_eq_true_iff] at hfits
      obtain ⟨⟨hinterface, hsame⟩, htype⟩ := hfits
      have hmodule := (Context.within_of_ofFile? hcontext).module_eq
      have himport := Scope.isPackageName_of_isLocal hlocal
      rw [Scope.text, Scope.context_ofFunction] at hmethod himport
      rw [hmodule] at hmethod
      exact ⟨⟨context, body, visit, operand, field, owner, package, spec, "Repo", method, hcontext,
        hbody, mem_visits_iff.mp hvisit, hkind, hoperand, hfield,
        fun hvalue => Bool.false_ne_true (himport.symm.trans hvalue.2), howner, hmethod,
        hinterface⟩, hsame, .inr (Reference.not_hides_of_isLocal hname hleaf hlocal), htype⟩

/-- The method of a parameter comes with its interface. -/
theorem uses_declares_interface_ask : shopDisk.WellFormed ∧ load shopDisk "/shop" = .ok shop
    ∧ NamesDistinct shop ∧ ∃ target, resolve shop "a.go" "Ask" = .ok target
      ∧ ("shop.Repo.Find", .function findDefinition) ∈ (uses shop target 1).entries
      ∧ (∃ selection : Selection shop target.declaration,
        selection.reference.definition = .function findDefinition ∧ selection.ShowsInterface)
      ∧ (uses shop target 1).find? "shop.Repo" = some (.type repoDefinition) := by
  have hdisk : shopDisk.WellFormed := by decide +kernel
  obtain ⟨hnodup, hask, -, -⟩ := shop_fits
  simp only [Option.any_eq_true, List.any_eq_true, Bool.and_eq_true, decide_eq_true_iff] at hask
  obtain ⟨target, htarget, hentry, context, hcontext, body, hbody, visit, hvisit, hfind⟩ := hask
  have hdistinct : NamesDistinct shop := namesDistinct_of_nodup hnodup
  have hresolve := eq_ok_of_toOption htarget
  obtain ⟨selection, hmethod, hshows, htype⟩ :=
    exists_selection_of_variable hcontext hbody hvisit hfind
  have hread := mem_bodiesRead shop target 1
  obtain ⟨-, hall⟩ := uses_declares_interface hdisk load_shop hresolve 1 hentry rfl rfl
  obtain ⟨-, -, -, hclosure⟩ := hall target.declaration hread selection hmethod
  have hfound := (hclosure hshows).2 hdistinct
  rw [htype] at hfound
  exact ⟨hdisk, load_shop, hdistinct, target, hresolve, hentry, ⟨selection, hmethod, hshows⟩,
    hfound⟩

/-- The method of what a function returns stands alone. -/
theorem uses_lacks_interface : shopDisk.WellFormed ∧ load shopDisk "/shop" = .ok shop
    ∧ ((shop.package? "shop").bind (·.findType? "Repo")).isSome = true
    ∧ ∃ target, resolve shop "a.go" "Use" = .ok target
      ∧ ("shop.Repo.Find", .function findDefinition) ∈ (uses shop target 1).entries
      ∧ (uses shop target 1).keys = ["shop.Repo.Find", "shop.open"] := by
  obtain ⟨-, -, hdeclared, huse⟩ := shop_fits
  simp only [Option.any_eq_true, Bool.and_eq_true, decide_eq_true_iff, beq_iff_eq] at huse
  obtain ⟨target, htarget, hentry, hkeys⟩ := huse
  exact ⟨by decide +kernel, load_shop, hdeclared, target, eq_ok_of_toOption htarget, hentry,
    hkeys⟩

end Assay.Focal
