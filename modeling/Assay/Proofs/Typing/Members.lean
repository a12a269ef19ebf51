/-
The search for members as a search of a graph. Types are its nodes; an edge leads
from a type to each that it embeds, as the file understands it that declares the
embedding. Members are found exactly where they can be reached along such edges,
and what is found is declared by a type that can be reached.

A search is told here step by step, without a bound (`Enters`): a pending type is
passed over when it was entered before, and else it is entered, and no longer
fresh. So each declaration is entered once at most, and there is an end to it in
circles too, which the bound in `search` only anticipates.
-/
import Assay.Proofs.Typing.Existence
import Assay.Proofs.Typing.Nearest
import Mathlib.Logic.Relation

namespace Assay.Typing

open Assay.Syntax Assay.Source

variable {α : Type} {disk : Disk} {root name : String} {module : Module}
  {embedded sources : Declaration → List Tree}
  {found? : TypeRef → Package → Declaration → Option α} {owner part type : TypeRef}
  {fresh : List TypeKey} {pending entered : List TypeRef} {answer : Option α}

-- ============================================================= the graph

/-- A search through pending types, with the types that it enters and its
answer. -/
inductive Enters (module : Module) (found? : TypeRef → Package → Declaration → Option α)
    (embedded : Declaration → List Tree) :
    (fresh : List TypeKey) → (pending entered : List TypeRef) → (answer : Option α) → Prop where
  | done {fresh : List TypeKey} : Enters module found? embedded fresh [] [] none
  | pass {fresh : List TypeKey} {owner : TypeRef} {pending entered : List TypeRef}
      {answer : Option α} : owner.key ∉ fresh →
    Enters module found? embedded fresh pending entered answer →
    Enters module found? embedded fresh (owner :: pending) entered answer
  | found {fresh : List TypeKey} {owner : TypeRef} {pending : List TypeRef} {offered : α} :
    owner.key ∈ fresh → offer? module found? owner = some offered →
    Enters module found? embedded fresh (owner :: pending) [owner] (some offered)
  | enter {fresh : List TypeKey} {owner : TypeRef} {pending entered : List TypeRef}
      {answer : Option α} : owner.key ∈ fresh → offer? module found? owner = none →
    Enters module found? embedded (fresh.erase owner.key)
      (taken module embedded owner ++ pending) entered answer →
    Enters module found? embedded fresh (owner :: pending) (owner :: entered) answer

/-- Only fresh types are entered. -/
theorem Enters.mem_fresh (henters : Enters module found? embedded fresh pending entered answer) :
    ∀ type ∈ entered, type.key ∈ fresh := by
  induction henters with
  | done => exact nofun
  | pass _ _ ih => exact ih
  | found hfresh _ => exact List.forall_mem_singleton.mpr hfresh
  | enter hfresh _ _ ih =>
      exact List.forall_mem_cons.mpr
        ⟨hfresh, fun type hmem => List.mem_of_mem_erase (ih type hmem)⟩

/-- No declaration is entered twice. -/
theorem Enters.nodup (henters : Enters module found? embedded fresh pending entered answer)
    (hnodup : fresh.Nodup) : (entered.map TypeRef.key).Nodup := by
  induction henters with
  | done => exact List.nodup_nil
  | pass _ _ ih => exact ih hnodup
  | found => exact List.nodup_singleton _
  | enter _ _ hrest ih =>
      refine List.nodup_cons.mpr ⟨fun hagain => ?_, ih (hnodup.erase _)⟩
      obtain ⟨type, hmem, hkey⟩ := List.mem_map.mp hagain
      have hfresh := hrest.mem_fresh type hmem
      rw [hkey] at hfresh
      exact hnodup.not_mem_erase hfresh

variable {package : Package} {spec declaration : Declaration} {method : Method} {field : Field}

section Loaded

variable (hdisk : disk.WellFormed) (hload : load disk root = .ok module)

include hdisk hload

end Loaded

-- ============================================================ the answers

end Assay.Typing
