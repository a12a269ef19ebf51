/-
What a function uses in a module without its test files: the same as in the
module. A reference carries no package, only what is printed of one, and the
bodies that are read come with their files; so the levels of reading are not
only alike, they are equal.
-/
import Assay.Focal.Usage
import Assay.Proofs.Typing.Bare

namespace Assay.Focal

open Assay.Syntax Assay.Source Assay.Typing

variable (module : Module) (package : Package) (scope : Scope) (node : Tree) (name : String)

-- ============================================================ references

namespace Reference

@[simp]
theorem toFunction_bare (declaration : Declaration) (receiver : Option Receiver) :
    toFunction package.bare declaration receiver = toFunction package declaration receiver := rfl

@[simp]
theorem toType_bare (spec : Declaration) : toType package.bare spec = toType package spec := rfl

@[simp]
theorem toTypeRef?_bare : toTypeRef? module.bare = toTypeRef? module := by
  funext type
  rw [toTypeRef?, typeSpec?_bare, Option.map_map, toTypeRef?]
  rfl

@[simp]
theorem ofMethod_bare (owner : TypeRef) (method : Method) :
    ofMethod owner method.bare = ofMethod owner method := by
  cases method <;> rfl

@[simp]
theorem ofName?_bare : ofName? scope.bare node = ofName? scope node := by
  simp [ofName?]

@[simp]
theorem ofPackageSelector?_bare :
    ofPackageSelector? scope.bare package.bare node name
      = ofPackageSelector? scope package node name := by
  simp [ofPackageSelector?]

@[simp]
theorem ofValueSelector_bare :
    ofValueSelector scope.bare node name = ofValueSelector scope node name := by
  unfold ofValueSelector
  dsimp only
  rw [Scope.infer?_bare, Scope.context_bare, Context.module_bare, toTypeRef?_bare]
  cases scope.infer? node with
  | none => rfl
  | some owner =>
      dsimp only
      rw [method?_bare, field?_bare]
      cases method? scope.context.module owner name with
      | some method => exact ofMethod_bare owner method
      | none => cases field? scope.context.module owner name <;> simp [Field.bare]

@[simp]
theorem ofSelector_bare : ofSelector scope.bare node = ofSelector scope node := by
  unfold ofSelector
  split
  · next operand field _ _ =>
      dsimp only
      rw [Scope.packageOperand?_bare]
      cases scope.packageOperand? operand <;> simp
  · rfl

theorem ofVisit_bare : ofVisit scope.bare = ofVisit scope := by
  funext visit
  simp [ofVisit]

theorem inBody_bare : inBody module.bare = inBody module := by
  funext function
  unfold inBody
  rw [Context.ofFile?_bare]
  cases Context.ofFile? module function.file with
  | none => rfl
  | some context =>
      cases function.part? .body with
      | none => rfl
      | some body =>
          dsimp only [Option.map_some]
          rw [Scope.ofFunction_bare, ofVisit_bare]

end Reference

-- ============================================================== the levels

theorem Reading.levels_bare (focal : QualifiedName) (depth : Nat) (reading : Reading) :
    levels module.bare focal depth reading = levels module focal depth reading := by
  induction depth generalizing reading with
  | zero => rfl
  | succ depth ih =>
      rw [levels, levels, level, Reference.inBody_bare, level, ih]

/-- The function in its bare package. -/
def Target.bare (target : Target) : Target := { target with package := target.package.bare }

/-- A function uses the same in the bare module. -/
theorem uses_bare (target : Target) (depth : Nat) :
    uses module.bare target.bare depth = uses module target depth := by
  rw [uses, Reading.levels_bare, uses]
  rfl

-- ============================================================== resolution

theorem answers_bare (file : File) (query : Query) :
    answers package.bare file query = (answers package file query).map Target.bare := by
  have htarget (node : Tree) :
      target? package.bare file node = (target? package file node).map Target.bare := by
    unfold target?
    dsimp only
    split
    · rw [Option.map_map]
      rfl
    · rw [Option.map_map]
      rfl
    · rfl
  unfold answers
  rw [funext htarget, ← List.map_filterMap, List.filter_map]
  rfl

/-- A query is answered alike in files that are the same, in packages that are
the same but for their tests. -/
theorem resolve_congr {module more : Module} {path : String}
    (hfile : (module.fileAt? path).map (fun found => (found.1.bare, found.2))
      = (more.fileAt? path).map fun found => (found.1.bare, found.2)) (query : String) :
    (resolve module path query).map Target.bare = (resolve more path query).map Target.bare := by
  unfold resolve
  cases hmodule : module.fileAt? path with
  | none =>
      cases hmore : more.fileAt? path with
      | none => rfl
      | some other => simp [hmodule, hmore] at hfile
  | some found =>
      cases hmore : more.fileAt? path with
      | none => simp [hmodule, hmore] at hfile
      | some other =>
          obtain ⟨package, file⟩ := found
          obtain ⟨package', file'⟩ := other
          simp only [hmodule, hmore, Option.map_some, Option.some.injEq, Prod.mk.injEq] at hfile
          obtain ⟨hpackage, rfl⟩ := hfile
          have hanswers : (answers package file (Query.ofString query)).map Target.bare
              = (answers package' file (Query.ofString query)).map Target.bare := by
            rw [← answers_bare, ← answers_bare, hpackage]
          have hid (targets : List Target) :
              targets.map Target.id = (targets.map Target.bare).map Target.id := by
            rw [List.map_map]
            rfl
          dsimp only
          generalize answers package file (Query.ofString query) = targets at hanswers
          generalize answers package' file (Query.ofString query) = others at hanswers
          -- the answers differ in their packages at most, so there are equally many
          match targets, others with
          | [], [] => rfl
          | [target], [other] => exact congrArg Except.ok (List.cons.inj hanswers).1
          | first :: second :: rest, first' :: second' :: rest' =>
              show Except.error (ResolveError.ambiguous query file.path (List.map Target.id _))
                = Except.error (ResolveError.ambiguous query file.path (List.map Target.id _))
              rw [hid, hanswers, ← hid]
          | [], _ :: _ | _ :: _, [] => cases hanswers
          | [_], _ :: _ :: _ | _ :: _ :: _, [_] => cases (List.cons.inj hanswers).2

end Assay.Focal
