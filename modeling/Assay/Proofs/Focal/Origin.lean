/-
Where the definitions of a closure come from. Every reference, whichever way it
was resolved, is made of a declaration that stands in a source file of a loaded
package (`Sourced`), and the closure holds nothing but what references refer to.
So each of its entries quotes the module.
-/
import Assay.Proofs.Focal.Levels
import Assay.Proofs.Source.Load
import Assay.Proofs.Text.Search
import Assay.Proofs.Typing.Declared

namespace Assay.Focal

open Assay.Syntax Assay.Source Assay.Typing

variable {module : Module} {package : Package} {file : File} {target : Target}
  {declaration spec : Declaration} {name : String} {node : Tree} {owner : TypeRef}

-- ============================================================= references

namespace Reference

/-- What a reference is made of. -/
inductive Sourced (module : Module) : Reference → Prop where
  | function {package : Package} {file : File} {declaration : Declaration} {name : String}
      (hloaded : package ∈ module.allPackages) (hsource : file ∈ package.sourceFiles)
      (hplaced : declaration ∈ file.declarations)
      (hkind : declaration.node.kind = .functionDeclaration)
      (hnamed : declaration.name? = some name) :
      Sourced module (toFunction package declaration none)
  | method {package : Package} {file : File} {declaration : Declaration} {name : String}
      {receiver : Receiver}
      (hloaded : package ∈ module.allPackages) (hsource : file ∈ package.sourceFiles)
      (hplaced : declaration ∈ file.declarations)
      (hkind : declaration.node.kind = .methodDeclaration)
      (hnamed : declaration.name? = some name) (hreceived : receiver? declaration = some receiver) :
      Sourced module (toFunction package declaration (some receiver))
  | interfaceMethod {package : Package} {file : File} {spec method : Declaration}
      {interface name : String}
      (hloaded : package ∈ module.allPackages) (hsource : file ∈ package.sourceFiles)
      (hplaced : spec ∈ file.typeSpecs) (hcalled : spec.name? = some interface)
      (hlisted : method ∈ methodElems spec) (hnamed : method.name? = some name) :
      Sourced module (toInterfaceMethod package interface method)
  | type {package : Package} {file : File} {spec : Declaration} {name : String}
      (hloaded : package ∈ module.allPackages) (hsource : file ∈ package.sourceFiles)
      (hplaced : spec ∈ file.typeSpecs) (hcalled : spec.name? = some name) :
      Sourced module (toType package spec)

variable {reference : Reference}

theorem sourced_toFunction (hloaded : package ∈ module.allPackages)
    (hfound : package.findFunction? name = some declaration) :
    Sourced module (toFunction package declaration none) := by
  obtain ⟨file, hsource, hplaced, hkind, hnamed⟩ := findFunction?_some hfound
  exact .function hloaded hsource hplaced hkind hnamed

theorem sourced_toType (hloaded : package ∈ module.allPackages)
    (hfound : package.findType? name = some spec) : Sourced module (toType package spec) := by
  obtain ⟨file, hsource, hplaced, hcalled⟩ := findType?_some hfound
  exact .type hloaded hsource hplaced hcalled

theorem sourced_of_toTypeRef? (hfound : toTypeRef? module owner = some reference) :
    Sourced module reference := by
  obtain ⟨⟨package, spec⟩, hdeclared, rfl⟩ := Option.map_eq_some_iff.mp hfound
  obtain ⟨hloaded, hdeclared⟩ := typeSpec?_some hdeclared
  exact sourced_toType hloaded hdeclared

theorem sourced_of_bind_toTypeRef? {type : Option TypeRef}
    (hfound : type.bind (toTypeRef? module) = some reference) : Sourced module reference := by
  obtain ⟨owner, -, hfound⟩ := Option.bind_eq_some_iff.mp hfound
  exact sourced_of_toTypeRef? hfound

-- ========================================================== ways to refer

variable {scope : Scope}

theorem sourced_of_ofPackageSelector? (hloaded : package ∈ scope.context.module.allPackages)
    (hfound : ofPackageSelector? scope package node name = some reference) :
    Sourced scope.context.module reference := by
  rw [ofPackageSelector?] at hfound
  split at hfound
  next hdeclared =>
    cases hfound
    exact sourced_toFunction hloaded hdeclared
  next hdeclared =>
    cases hfound
    exact sourced_toType hloaded hdeclared
  next => exact sourced_of_bind_toTypeRef? hfound

theorem sourced_of_ofName? (hloaded : scope.context.package ∈ scope.context.module.allPackages)
    (hfound : ofName? scope node = some reference) : Sourced scope.context.module reference := by
  rw [ofName?] at hfound
  split at hfound
  next => exact sourced_of_bind_toTypeRef? hfound
  next =>
    -- A name of the own package is looked up like one selected from it.
    obtain ⟨-, hfound⟩ := Option.ite_none_left_eq_some.mp hfound
    exact sourced_of_ofPackageSelector? hloaded hfound

theorem sourced_of_ofMethod {method : Method} (hdeclared : method.IsDeclared module name)
    (hmem : reference ∈ ofMethod owner method) : Sourced module reference := by
  cases method with
  | concrete package declaration receiver =>
    obtain ⟨hloaded, file, hsource, hplaced, hkind, hnamed, hreceived⟩ := hdeclared
    cases List.mem_singleton.mp hmem
    exact .method hloaded hsource hplaced hkind hnamed hreceived
  | interface package spec declaration =>
    obtain ⟨hloaded, file, hsource, hplaced, hlisted, hnamed⟩ := hdeclared
    rw [ofMethod] at hmem
    split at hmem
    next => cases hmem
    next hcalled =>
      obtain rfl | hinherited := List.mem_cons.mp hmem
      · exact .interfaceMethod hloaded hsource hplaced hcalled hlisted hnamed
      · split at hinherited
        · cases List.mem_singleton.mp hinherited
          exact .type hloaded hsource hplaced hcalled
        · cases hinherited

theorem sourced_of_ofValueSelector (hmem : reference ∈ ofValueSelector scope node name) :
    Sourced scope.context.module reference := by
  rw [ofValueSelector] at hmem
  split at hmem
  next => cases hmem
  next owner _ =>
    split at hmem
    next method hfound => exact sourced_of_ofMethod (method?_isDeclared hfound) hmem
    next =>
      obtain ⟨field, -, hfound⟩ := Option.bind_eq_some_iff.mp (Option.mem_toList.mp hmem)
      exact sourced_of_bind_toTypeRef? hfound

theorem sourced_of_ofSelector (hmem : reference ∈ ofSelector scope node) :
    Sourced scope.context.module reference := by
  rw [ofSelector] at hmem
  split at hmem
  next operand field _ _ =>
    split at hmem
    next package himported =>
      obtain ⟨-, himported⟩ := Option.ite_none_right_eq_some.mp himported
      exact sourced_of_ofPackageSelector? (mem_allPackages_of_imported? himported)
        (Option.mem_toList.mp hmem)
    next =>
      split at hmem
      · cases hmem
      · exact sourced_of_ofValueSelector hmem
  next => cases hmem

theorem sourced_of_ofVisit {visit : Tree.Visit}
    (hloaded : scope.context.package ∈ scope.context.module.allPackages)
    (hmem : reference ∈ ofVisit scope visit) : Sourced scope.context.module reference := by
  have hofType (hmem : reference ∈ ((scope.context.resolve? visit.tree).bind
      (toTypeRef? scope.context.module)).toList) : Sourced scope.context.module reference :=
    sourced_of_bind_toTypeRef? (Option.mem_toList.mp hmem)
  rw [ofVisit] at hmem
  split at hmem
  case h_1 =>
    split at hmem
    · cases hmem
    · exact sourced_of_ofName? hloaded (Option.mem_toList.mp hmem)
  case h_2 =>
    split at hmem
    · cases hmem
    · exact hofType hmem
  case h_3 => exact hofType hmem
  case h_4 => exact sourced_of_ofSelector hmem
  case h_5 => cases hmem

/-- Every reference in a body is made of a declaration in a source file of a
loaded package. -/
theorem sourced_of_inBody (hmem : reference ∈ inBody module declaration) :
    Sourced module reference := by
  rw [inBody] at hmem
  split at hmem
  next context body hplaced _ =>
    obtain ⟨package, hloaded, rfl⟩ := Option.map_eq_some_iff.mp hplaced
    obtain ⟨visit, -, hmem⟩ := List.mem_flatMap.mp hmem
    have hsourced := sourced_of_ofVisit (by simpa using mem_allPackages_of_packageOf? hloaded) hmem
    simpa using hsourced
  next => cases hmem

end Reference

-- ============================================================== quotations

/-- A definition of a function or type shows what a file declares. Only what is
reached through an interface comes without a body. -/
def Quotes (file : File) : Definition → Prop
  | .function definition =>
    definition.file = some file.path ∧ match definition.receiver with
      | none => ∃ declaration ∈ file.declarations,
          declaration.node.kind = .functionDeclaration
            ∧ declaration.name? = some definition.name
            ∧ definition.signature = declaration.signature
            ∧ definition.body = some declaration.text
      | some receiver =>
        if receiver.kind = .interface then ∃ spec ∈ file.typeSpecs, ∃ method ∈ methodElems spec,
          spec.name? = some receiver.typeName
            ∧ method.name? = some definition.name
            ∧ definition.signature = method.text
            ∧ definition.body = none
        else ∃ declaration ∈ file.declarations,
          declaration.node.kind = .methodDeclaration
            ∧ declaration.name? = some definition.name
            ∧ receiver? declaration = some receiver
            ∧ definition.signature = declaration.signature
            ∧ definition.body = some declaration.text
  | .type definition =>
    definition.file = file.path ∧ ∃ spec ∈ file.typeSpecs,
      spec.name? = some definition.name ∧ definition.body = "type " ++ spec.text

/-- A definition that a package stands behind: it has its name from the package,
and a source file of the package has its text. -/
def ComesFrom (package : Package) (definition : Definition) : Prop :=
  definition.package = package.reference
    ∧ definition.id = (match definition with
      | .function function => .ofFunction package.id function.receiver function.name
      | .type type => .ofType package.id type.name)
    ∧ ∃ file ∈ package.sourceFiles, Quotes file definition

theorem nameIn_eq (hnamed : declaration.name? = some name) :
    Reference.nameIn declaration = name := by
  rw [Reference.nameIn, hnamed, Option.getD_some]

/-- A receiver that is written down is a value or a pointer. -/
theorem receiver?_kind_ne {receiver : Receiver}
    (hreceived : receiver? declaration = some receiver) : receiver.kind ≠ .interface := by
  simp only [receiver?, Option.pure_def, Option.bind_eq_bind, Option.bind_eq_some_iff] at hreceived
  obtain ⟨parameters, -, first, -, type, -, hreceived⟩ := hreceived
  split at hreceived
  all_goals
    simp only [Option.bind_eq_some_iff] at hreceived
    obtain ⟨⟨base, kind⟩, hbased, hreceived⟩ := hreceived
    have hsame : kind = receiver.kind := by
      split at hreceived
      all_goals
        obtain ⟨hnamed, -, hsame⟩ := Option.bind_eq_some_iff.mp hreceived
        cases hsame
        rfl
    rw [← hsame]
  · obtain ⟨pointee, -, hpair⟩ := Option.map_eq_some_iff.mp hbased
    cases hpair
    exact ReceiverKind.noConfusion
  · cases hbased
    exact ReceiverKind.noConfusion

/-- What a reference refers to is quoted from a loaded package. -/
theorem Reference.Sourced.comesFrom {reference : Reference} (hsourced : Sourced module reference) :
    ∃ package ∈ module.allPackages, ComesFrom package reference.definition := by
  cases hsourced with
  | @function package file declaration name hloaded hsource hplaced hkind hnamed =>
    refine ⟨package, hloaded, rfl, rfl, file, hsource, ?_, declaration, hplaced, hkind, ?_, rfl,
      rfl⟩
    · exact congrArg (some ·.path) (file_of_mem_declarations hplaced)
    · rw [hnamed, ← nameIn_eq hnamed]
  | @method package file declaration name receiver hloaded hsource hplaced hkind hnamed hreceived =>
    refine ⟨package, hloaded, rfl, rfl, file, hsource, ?_, ?_⟩
    · exact congrArg (some ·.path) (file_of_mem_declarations hplaced)
    · simp only [if_neg (receiver?_kind_ne hreceived)]
      exact ⟨declaration, hplaced, hkind, by rw [hnamed, nameIn_eq hnamed], hreceived, rfl, rfl⟩
  | @interfaceMethod package file spec method interface name hloaded hsource hplaced hcalled hlisted
      hnamed =>
    refine ⟨package, hloaded, rfl, rfl, file, hsource, ?_, ?_⟩
    · have hsame := (of_mem_methodElems hlisted).1.trans (file_of_mem_typeSpecs hplaced)
      exact congrArg (some ·.path) hsame
    · simp only [if_true]
      exact ⟨spec, hplaced, method, hlisted, hcalled, by rw [hnamed, nameIn_eq hnamed], rfl,
        trivial⟩
  | @type package file spec name hloaded hsource hplaced hcalled =>
    refine ⟨package, hloaded, rfl, rfl, file, hsource, ?_, spec, hplaced, ?_, rfl⟩
    · exact congrArg (·.path) (file_of_mem_typeSpecs hplaced)
    · rw [hcalled, ← nameIn_eq hcalled]

/-- Every entry of a closure stands under its own name, is not the function
under test, and quotes a source file of a loaded package. -/
theorem uses_comeFrom (module : Module) (target : Target) (depth : Nat) :
    ∀ entry ∈ (uses module target depth).entries,
      entry.1 = entry.2.id.text ∧ entry.2.id ≠ target.id
        ∧ ∃ package ∈ module.allPackages, ComesFrom package entry.2 := by
  intro entry hmem
  obtain ⟨body, -, reference, hlisted, hother, rfl⟩ := exists_reference_of_mem_uses hmem
  exact ⟨rfl, hother, (Reference.sourced_of_inBody hlisted).comesFrom⟩

/-- Two functions that call each other. -/
def paritySource : List Char :=
  ("package parity\n\ntype Count int\n\n"
    ++ "func Even(n Count) bool \x7b return n == 0 || Odd(n-1) \x7d\n\n"
    ++ "func Odd(n Count) bool \x7b return n != 0 && Even(n-1) \x7d\n").toList

/-- A module of a single file. -/
def parityDisk : Disk where
  entries := [(["parity"], .directory),
    (["parity", "go.mod"], .file (.text "module parity\n".toList)),
    (["parity", "parity.go"], .file (.text paritySource))]

/-- The module, loaded. -/
def parity : Module := moduleOf parityDisk ["parity"] "parity"
  ([(["parity", "parity.go"], paritySource)].filterMap parsedFile?)

/-- The first of the functions. -/
def evenTarget : Target := (resolve parity "parity.go" "Even").toOption.get (by decide +kernel)

/-- What the prompt for the first function says of the second. -/
def oddDefinition : Definition := .function {
  id := ⟨"parity.Odd"⟩
  name := "Odd"
  package := ⟨"parity", "parity"⟩
  file := some "/parity/parity.go"
  receiver := none
  signature := "func Odd(n Count) bool"
  body := some "func Odd(n Count) bool \x7b return n != 0 && Even(n-1) \x7d" }

theorem uses_comeFrom_odd : ("parity.Odd", oddDefinition) ∈ (uses parity evenTarget 1).entries
    ∧ oddDefinition.id ≠ evenTarget.id
    ∧ ∃ package ∈ parity.allPackages, ComesFrom package oddDefinition := by
  have hevery : ∀ target ∈ (resolve parity "parity.go" "Even").toOption,
      ("parity.Odd", oddDefinition) ∈ (uses parity target 1).entries := by
    rw [parity, parityDisk, show paritySource = _ from
      Text.toList_append_literal (Text.toList_append_literal String.toList_ofList)]
    decide +kernel
  have hmem := hevery evenTarget (Option.get_mem _)
  exact ⟨hmem, (uses_comeFrom parity evenTarget 1 _ hmem).2⟩

end Assay.Focal
