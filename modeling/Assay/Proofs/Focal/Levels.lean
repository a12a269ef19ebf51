/-
The reading of bodies, level by level, seen as one pass. The definitions found
in the end are what a single pass over the references of the bodies collects, in
the order in which the bodies are read; the levels only decide which bodies
these are.

The recursion reads the first level first and stops when nothing is left. Laws
of a level are carried through it from the other end (`levels_succ`): one level
more is a level after all the others, also where these have stopped, since a
level without bodies leaves a reading as it is.
-/
import Assay.Focal.Usage
import Assay.Proofs.Catalog
import Mathlib.Data.List.Induction

namespace Assay.Focal

open Assay.Source

variable {module : Module} {target : Target} {focal : QualifiedName} {reading : Reading}
  {reference : Reference} {references : List Reference} {found : UsageClosure} {key : String}
  {entry : String × Definition} {depth : Nat}

-- ============================================================ collecting

/-- Adds what a reference refers to, unless that is the function under test. -/
def record (focal : QualifiedName) (found : UsageClosure) (reference : Reference) : UsageClosure :=
  if reference.definition.id = focal then found else found.add reference.definition

/-- What is collected is a name that a reference refers to. -/
theorem mem_keys_record : key ∈ (record focal found reference).keys ↔
    reference.definition.id ≠ focal ∧ reference.definition.id.text = key ∨ key ∈ found.keys := by
  rw [record]
  split
  next hsame => simp [hsame]
  next hother =>
    rw [UsageClosure.add, Catalog.mem_keys_insert, eq_comm (a := key)]
    simp [hother]

theorem mem_entries_record (hmem : entry ∈ (record focal found reference).entries) :
    reference.definition.id ≠ focal
        ∧ entry = (reference.definition.id.text, reference.definition)
      ∨ entry ∈ found.entries := by
  rw [record] at hmem
  split at hmem
  next => exact .inr hmem
  next hother => exact (Catalog.mem_entries_insert hmem).imp_left fun hsame => ⟨hother, hsame⟩

theorem mem_keys_foldl_record : key ∈ (references.foldl (record focal) found).keys ↔
    key ∈ found.keys ∨ ∃ reference ∈ references,
      reference.definition.id ≠ focal ∧ reference.definition.id.text = key := by
  induction references generalizing found with
  | nil => simp
  | cons reference references ih =>
    simp only [List.foldl_cons, ih, mem_keys_record, List.mem_cons, exists_eq_or_imp]
    rw [or_assoc, or_left_comm]

theorem mem_entries_foldl_record (hmem : entry ∈ (references.foldl (record focal) found).entries) :
    entry ∈ found.entries ∨ ∃ reference ∈ references, reference.definition.id ≠ focal
      ∧ entry = (reference.definition.id.text, reference.definition) := by
  induction references generalizing found with
  | nil => exact .inl hmem
  | cons reference references ih =>
    obtain hmem | ⟨later, hlisted, hfits⟩ := ih hmem
    · obtain hfits | hmem := mem_entries_record hmem
      · exact .inr ⟨reference, List.mem_cons_self .., hfits⟩
      · exact .inl hmem
    · exact .inr ⟨later, List.mem_cons_of_mem _ hlisted, hfits⟩

/-- The definition under a name is that of the last reference to it. -/
theorem find?_foldl_record (focal : QualifiedName) (references : List Reference)
    (id : QualifiedName) :
    (references.foldl (record focal) Catalog.empty).find? id.text
      = if id = focal then none
        else (references.reverse.find? (·.definition.id == id)).map (·.definition) := by
  induction references using List.reverseRecOn with
  | nil => exact (ite_self none).symm
  | append_singleton references last ih =>
    rw [List.foldl_append, List.foldl_cons, List.foldl_nil, record, List.reverse_concat,
      List.find?_cons]
    by_cases hhere : last.definition.id = id
    · -- The last reference is to this name, and decides.
      subst hhere
      rw [beq_self_eq_true]
      by_cases hown : last.definition.id = focal
      · rw [if_pos hown, if_pos hown, ih, if_pos hown]
      · rw [if_neg hown, if_neg hown, UsageClosure.add, Catalog.find?_insert, if_pos rfl]
        rfl
    · -- The last reference is to another name, and the rest decides.
      rw [beq_eq_false_iff_ne.mpr hhere, ← ih]
      split
      next => rfl
      next =>
        rw [UsageClosure.add, Catalog.find?_insert, if_neg]
        exact fun hsame => hhere (congrArg QualifiedName.mk hsame)

-- =============================================================== levels

namespace Reading

theorem uses_take :
    (take focal reading reference).uses = record focal reading.uses reference := by
  rw [take, record]
  split
  · rfl
  · split <;> rfl

theorem uses_foldl_take : (references.foldl (take focal) reading).uses
    = references.foldl (record focal) reading.uses := by
  induction references generalizing reading with
  | nil => rfl
  | cons reference references ih => rw [List.foldl_cons, List.foldl_cons, ih, uses_take]

theorem uses_level : (reading.level module focal).uses
    = (reading.next.flatMap (Reference.inBody module)).foldl (record focal) reading.uses :=
  uses_foldl_take

/-- A level without bodies changes nothing. -/
theorem level_of_next_eq_nil (hnothing : reading.next = []) :
    reading.level module focal = reading := by
  obtain ⟨met, uses, next⟩ := reading
  cases hnothing
  rfl

/-- One level more is a level after the others. -/
theorem levels_succ (module : Module) (focal : QualifiedName) (depth : Nat) (reading : Reading) :
    levels module focal (depth + 1) reading
      = (levels module focal depth reading).level module focal := by
  induction depth generalizing reading with
  | zero =>
    rw [levels, levels, levels]
    split <;> rfl
  | succ depth ih =>
    unfold levels
    dsimp only
    split
    next hnothing => exact (level_of_next_eq_nil (List.isEmpty_iff.mp hnothing)).symm
    next => exact ih _

/-- The bodies read on so many levels, in the order in which `levels` reads
them. -/
def bodies (module : Module) (focal : QualifiedName) : (depth : Nat) → Reading → List Declaration
  | 0, _ => []
  | depth + 1, reading =>
    let after := reading.level module focal
    reading.next ++ if after.next.isEmpty then [] else bodies module focal depth after

/-- The definitions found on some levels are those a single pass over the bodies
read there collects. -/
theorem uses_levels (module : Module) (focal : QualifiedName) (depth : Nat) (reading : Reading) :
    (levels module focal depth reading).uses
      = ((bodies module focal depth reading).flatMap (Reference.inBody module)).foldl
          (record focal) reading.uses := by
  induction depth generalizing reading with
  | zero => rfl
  | succ depth ih =>
    rw [levels, bodies, List.flatMap_append, List.foldl_append, ← uses_level]
    split
    next => rfl
    next => exact ih _

/-- One level more reads the bodies that the others have left. -/
theorem bodies_succ (module : Module) (focal : QualifiedName) (depth : Nat) (reading : Reading) :
    bodies module focal (depth + 1) reading
      = bodies module focal depth reading ++ (levels module focal depth reading).next := by
  induction depth generalizing reading with
  | zero =>
    rw [bodies, bodies, bodies, levels]
    split <;> exact List.append_nil _
  | succ depth ih =>
    unfold bodies levels
    dsimp only
    rw [List.append_assoc]
    congr 1
    split
    next hnothing => exact (List.isEmpty_iff.mp hnothing).symm
    next => exact ih _

/-- A reading in which no body has been read. -/
def start (target : Target) : Reading := ⟨[target.id], Catalog.empty, [target.declaration]⟩

end Reading

-- ============================================================= the closure

/-- The bodies that are read for the closure of a function, in order. -/
def bodiesRead (module : Module) (target : Target) (depth : Nat) : List Declaration :=
  Reading.bodies module target.id (max depth 1) (Reading.start target)

/-- The closure is what a single pass over the bodies collects. -/
theorem uses_eq_foldl (module : Module) (target : Target) (depth : Nat) :
    uses module target depth
      = ((bodiesRead module target depth).flatMap (Reference.inBody module)).foldl
          (record target.id) Catalog.empty :=
  Reading.uses_levels module target.id (max depth 1) (Reading.start target)

theorem mem_keys_uses : key ∈ (uses module target depth).keys ↔
    ∃ body ∈ bodiesRead module target depth, ∃ reference ∈ Reference.inBody module body,
      reference.definition.id ≠ target.id ∧ reference.definition.id.text = key := by
  rw [uses_eq_foldl, mem_keys_foldl_record]
  simp only [Catalog.keys_empty, List.not_mem_nil, false_or, List.mem_flatMap]
  constructor
  · rintro ⟨reference, ⟨body, hread, hlisted⟩, hfits⟩
    exact ⟨body, hread, reference, hlisted, hfits⟩
  · rintro ⟨body, hread, reference, hlisted, hfits⟩
    exact ⟨reference, ⟨body, hread, hlisted⟩, hfits⟩

theorem exists_reference_of_mem_uses (hmem : entry ∈ (uses module target depth).entries) :
    ∃ body ∈ bodiesRead module target depth, ∃ reference ∈ Reference.inBody module body,
      reference.definition.id ≠ target.id
        ∧ entry = (reference.definition.id.text, reference.definition) := by
  rw [uses_eq_foldl] at hmem
  obtain hmem | ⟨reference, hlisted, hfits⟩ := mem_entries_foldl_record hmem
  · cases hmem
  · obtain ⟨body, hread, hlisted⟩ := List.mem_flatMap.mp hlisted
    exact ⟨body, hread, reference, hlisted, hfits⟩

end Assay.Focal
