/-
Which bodies a closure is made of. References lead from one function to the
next, so functions are reached in so many steps; with a depth, exactly the
bodies of those are read that are reached in fewer steps, and each of them once.

The levels search breadth first, with one list of names met for everything
found: types, methods without bodies, and functions whose bodies wait to be
read. The invariant (`Progress`) ties this list to the bodies read so far, and
these, together with the bodies that wait, to what is reached. A name that has
been met is never followed again; that nothing is lost by this needs the names
to be distinct, for then the body left out is the body that was taken.
-/
import Assay.Proofs.Focal.Naming
import Mathlib.Data.List.Perm.Subperm

namespace Assay.Focal

open Assay.Source

variable {module : Module} {target : Target} {path query : String} {function : Named}
  {reference : Reference} {references : List Reference} {met : List QualifiedName}
  {reading : Reading} {steps more depth deeper : Nat}

-- ================================================================ reach

/-- A function is reached from the target in at most so many steps, each from a
body to a function that it refers to. -/
inductive Reached (module : Module) (target : Target) : (steps : Nat) → Named → Prop where
  | start (steps : Nat) : Reached module target steps ⟨target.id, target.declaration⟩
  | step {steps : Nat} {function : Named} {reference : Reference} {declaration : Declaration}
      (hreached : Reached module target steps function)
      (hlisted : reference ∈ Reference.inBody module function.declaration)
      (hnext : reference.next = some declaration) :
      Reached module target (steps + 1) ⟨reference.definition.id, declaration⟩

namespace Reached

theorem mono (hreached : Reached module target steps function) (hle : steps ≤ more) :
    Reached module target more function := by
  induction hreached generalizing more with
  | start => exact .start more
  | step _ hlisted hnext ih =>
    obtain ⟨more, rfl⟩ := Nat.exists_eq_add_of_le' (Nat.lt_of_lt_of_le (Nat.succ_pos _) hle)
    exact .step (ih (Nat.le_of_succ_le_succ hle)) hlisted hnext

/-- What is reached is a declaration of the module, and one with a body to read. -/
theorem mem_declarations (hresolved : resolve module path query = .ok target)
    (hreached : Reached module target steps function) :
    function ∈ declarations module ∧ (body? function.declaration).isSome := by
  cases hreached with
  | start =>
    obtain ⟨hdeclared, hkind⟩ := mem_declarations_of_resolve hresolved
    exact ⟨hdeclared, by rw [body?, if_pos hkind]; rfl⟩
  | step _ hlisted hnext =>
    obtain ⟨declaration, hdeclared, hheld⟩ := (Reference.sourced_of_inBody hlisted).named
    rw [hheld] at hnext
    obtain ⟨-, hsame⟩ := Option.ite_none_right_eq_some.mp hnext
    obtain rfl := Option.some.inj hsame
    exact ⟨hdeclared, Option.isSome_of_eq_some hnext⟩

end Reached

/-- A further step reaches nothing new. -/
def Settled (module : Module) (target : Target) (steps : Nat) : Prop :=
  ∀ function, Reached module target (steps + 1) function → Reached module target steps function

/-- Where one step reaches nothing new, no number of steps does. -/
theorem Settled.reached (hsettled : Settled module target steps)
    (hreached : Reached module target more function) : Reached module target steps function := by
  induction hreached with
  | start => exact .start steps
  | step _ hlisted hnext ih => exact hsettled _ (.step ih hlisted hnext)

/-- Steps that reach nothing new come early, or else many functions are
reached. -/
theorem settled_or_many (module : Module) (target : Target) (steps : Nat) :
    (∃ fewer < steps, Settled module target fewer)
      ∨ ∃ functions : List Named, functions.Nodup ∧ functions.length = steps + 1
        ∧ ∀ function ∈ functions, Reached module target steps function := by
  induction steps with
  | zero =>
    refine .inr ⟨[⟨target.id, target.declaration⟩], List.nodup_singleton _, rfl, ?_⟩
    intro function hmem
    rw [List.mem_singleton.mp hmem]
    exact .start 0
  | succ steps ih =>
    obtain ⟨fewer, hlt, hsettled⟩ | ⟨functions, hnodup, hlength, hreached⟩ := ih
    · exact .inl ⟨fewer, Nat.lt_succ_of_lt hlt, hsettled⟩
    · by_cases hsettled : Settled module target steps
      · exact .inl ⟨steps, Nat.lt_succ_self steps, hsettled⟩
      · simp only [Settled, not_forall] at hsettled
        obtain ⟨fresh, hhere, hbefore⟩ := hsettled
        refine .inr ⟨fresh :: functions, ?_, by rw [List.length_cons, hlength], ?_⟩
        · exact List.nodup_cons.mpr ⟨fun hmem => hbefore (hreached fresh hmem), hnodup⟩
        · intro function hmem
          obtain rfl | hmem := List.mem_cons.mp hmem
          · exact hhere
          · exact (hreached function hmem).mono (Nat.le_succ steps)

/-- With as many steps as there are declarations, nothing new is reached. -/
theorem exists_settled (hresolved : resolve module path query = .ok target) :
    ∃ fewer < (declarations module).length, Settled module target fewer := by
  obtain hsettled | ⟨functions, hnodup, hlength, hreached⟩ :=
    settled_or_many module target (declarations module).length
  · exact hsettled
  · have hsubset : functions ⊆ declarations module := fun function hmem =>
      ((hreached function hmem).mem_declarations hresolved).1
    have := (List.Nodup.subperm hnodup hsubset).length_le
    omega

-- ============================================================ one level

/-- The functions that references lead to under names not met before. -/
def discovered : (met : List QualifiedName) → List Reference → List Named
  | _, [] => []
  | met, reference :: references =>
    let id := reference.definition.id
    if id ∈ met then discovered met references
    else reference.next.toList.map (⟨id, ·⟩) ++ discovered (id :: met) references

theorem exists_reference_of_mem_discovered (hmem : function ∈ discovered met references) :
    ∃ reference ∈ references,
      reference.definition.id = function.id ∧ reference.next = some function.declaration := by
  fun_induction discovered met references with
  | case1 => cases hmem
  | case2 met reference references id hknown ih =>
    obtain ⟨later, hlisted, hfits⟩ := ih hmem
    exact ⟨later, List.mem_cons_of_mem _ hlisted, hfits⟩
  | case3 met reference references id hfresh ih =>
    obtain hmem | hmem := List.mem_append.mp hmem
    · obtain ⟨declaration, hnext, rfl⟩ := List.mem_map.mp hmem
      exact ⟨reference, List.mem_cons_self .., rfl, Option.mem_toList.mp hnext⟩
    · obtain ⟨later, hlisted, hfits⟩ := ih hmem
      exact ⟨later, List.mem_cons_of_mem _ hlisted, hfits⟩

theorem not_mem_met_of_mem_discovered (hmem : function ∈ discovered met references) :
    function.id ∉ met := by
  fun_induction discovered met references with
  | case1 => cases hmem
  | case2 met reference references id hknown ih => exact ih hmem
  | case3 met reference references id hfresh ih =>
    obtain hmem | hmem := List.mem_append.mp hmem
    · obtain ⟨declaration, -, rfl⟩ := List.mem_map.mp hmem
      exact hfresh
    · exact fun hknown => ih hmem (List.mem_cons_of_mem _ hknown)

theorem nodup_discovered (met : List QualifiedName) (references : List Reference) :
    ((discovered met references).map (·.id)).Nodup := by
  fun_induction discovered met references with
  | case1 => exact List.nodup_nil
  | case2 met reference references id hknown ih => exact ih
  | case3 met reference references id hfresh ih =>
    rw [List.map_append, List.nodup_append']
    refine ⟨?_, ih, ?_⟩
    · cases reference.next <;> simp
    · intro other hhead htail
      obtain ⟨function, hmem, rfl⟩ := List.mem_map.mp htail
      have hapart := not_mem_met_of_mem_discovered hmem
      have hsame : function.id = id := by
        cases hnext : reference.next <;> simp_all
      exact hapart (hsame ▸ List.mem_cons_self ..)

/-- No function behind a new name is lost, provided that references to one name
lead to one body. -/
theorem mem_discovered {declaration : Declaration}
    (hagree : ∀ other ∈ references, other.definition.id = reference.definition.id →
      other.next = reference.next)
    (hlisted : reference ∈ references) (hfresh : reference.definition.id ∉ met)
    (hnext : reference.next = some declaration) :
    ⟨reference.definition.id, declaration⟩ ∈ discovered met references := by
  fun_induction discovered met references with
  | case1 => cases hlisted
  | case2 met first references id hknown ih =>
    obtain rfl | hlisted := List.mem_cons.mp hlisted
    · exact absurd hknown hfresh
    · exact ih (fun other hmem => hagree other (List.mem_cons_of_mem _ hmem)) hlisted hfresh
  | case3 met first references id hunknown ih =>
    by_cases hsame : id = reference.definition.id
    · have hheld := (hagree first (List.mem_cons_self ..) hsame).trans hnext
      refine List.mem_append_left _ ?_
      rw [hheld, hsame]
      exact List.mem_singleton_self _
    · obtain rfl | hlisted := List.mem_cons.mp hlisted
      · exact absurd rfl hsame
      · refine List.mem_append_right _
          (ih (fun other hmem => hagree other (List.mem_cons_of_mem _ hmem)) hlisted ?_)
        exact fun hknown => (List.mem_cons.mp hknown).elim (fun h => hsame h.symm) hfresh

namespace Reading

variable {focal : QualifiedName}

/-- A name met before is not followed. -/
theorem take_of_mem (focal : QualifiedName) (hmet : reference.definition.id ∈ reading.met) :
    (take focal reading reference).met = reading.met
      ∧ (take focal reading reference).next = reading.next := by
  rw [take]
  split
  · exact ⟨rfl, rfl⟩
  · exact ⟨rfl, rfl⟩

/-- A new name is met, and followed. -/
theorem take_of_not_mem (hknown : focal ∈ reading.met)
    (hfresh : reference.definition.id ∉ reading.met) :
    (take focal reading reference).met = reference.definition.id :: reading.met
      ∧ (take focal reading reference).next = reading.next ++ reference.next.toList := by
  have hother : reference.definition.id ≠ focal := fun hsame => hfresh (hsame ▸ hknown)
  simp [take, hother, hfresh]

/-- The bodies to read next are those of the functions discovered. -/
theorem next_foldl_take (references : List Reference) (reading : Reading)
    (hknown : focal ∈ reading.met) : (references.foldl (take focal) reading).next
      = reading.next ++ (discovered reading.met references).map (·.declaration) := by
  induction references generalizing reading with
  | nil => exact (List.append_nil _).symm
  | cons reference references ih =>
    rw [List.foldl_cons, discovered]
    by_cases hmem : reference.definition.id ∈ reading.met
    · obtain ⟨hmet, hnext⟩ := take_of_mem focal hmem
      rw [ih _ (by rwa [hmet]), hmet, hnext, if_pos hmem]
    · obtain ⟨hmet, hnext⟩ := take_of_not_mem hknown hmem
      rw [ih _ (by rw [hmet]; exact List.mem_cons_of_mem _ hknown), hmet, hnext, if_neg hmem]
      cases reference.next <;> simp

/-- The names met are those of all references. -/
theorem mem_met_foldl_take {id : QualifiedName} (references : List Reference) (reading : Reading)
    (hknown : focal ∈ reading.met) : id ∈ (references.foldl (take focal) reading).met ↔
      id ∈ reading.met ∨ ∃ reference ∈ references, reference.definition.id = id := by
  induction references generalizing reading with
  | nil => simp
  | cons reference references ih =>
    simp only [List.foldl_cons, List.mem_cons, exists_eq_or_imp]
    by_cases hmem : reference.definition.id ∈ reading.met
    · obtain ⟨hmet, -⟩ := take_of_mem focal hmem
      have habsorbed : reference.definition.id = id → id ∈ reading.met := (· ▸ hmem)
      rw [ih _ (by rwa [hmet]), hmet, ← or_assoc, or_iff_left_of_imp habsorbed]
    · obtain ⟨hmet, -⟩ := take_of_not_mem hknown hmem
      rw [ih _ (by rw [hmet]; exact List.mem_cons_of_mem _ hknown), hmet, List.mem_cons, or_assoc,
        or_left_comm, eq_comm]

end Reading

-- =========================================================== the search

/-- The references in the bodies of functions. -/
def referencesOf (module : Module) (functions : List Named) : List Reference :=
  functions.flatMap fun function => Reference.inBody module function.declaration

/-- How a reading stands after so many levels: the bodies of `scanned` have been
read, those of `waiting` are next. -/
structure Progress (module : Module) (target : Target) (steps : Nat) (reading : Reading)
    (scanned waiting : List Named) : Prop where
  next : reading.next = waiting.map (·.declaration)
  /-- What fewer steps reach has been read. -/
  mem_scanned : ∀ function, function ∈ scanned ↔
    ∃ fewer < steps, Reached module target fewer function
  /-- What these steps reach has been read or waits. -/
  mem_found : ∀ function, function ∈ scanned ++ waiting ↔ Reached module target steps function
  nodup : ((scanned ++ waiting).map (·.id)).Nodup
  /-- Types and methods without bodies are met too, and never wait. -/
  mem_met : ∀ id, id ∈ reading.met ↔
    id = target.id ∨ ∃ reference ∈ referencesOf module scanned, reference.definition.id = id

theorem progress_start (module : Module) (target : Target) :
    Progress module target 0 (Reading.start target) [] [⟨target.id, target.declaration⟩] where
  next := rfl
  mem_scanned function := by simp
  mem_found function := by
    rw [List.nil_append, List.mem_singleton]
    constructor
    · rintro rfl
      exact .start 0
    · rintro ⟨⟩
      rfl
  nodup := List.nodup_singleton _
  mem_met id := by simp [Reading.start, referencesOf]

namespace Progress

variable {scanned waiting : List Named}

/-- The names of the functions found so far have been met. -/
theorem id_mem_met (hprogress : Progress module target steps reading scanned waiting)
    (hmem : function ∈ scanned ++ waiting) : function.id ∈ reading.met := by
  rw [hprogress.mem_met]
  cases (hprogress.mem_found function).mp hmem with
  | start => exact .inl rfl
  | @step steps before reference declaration hreached hlisted hnext =>
    have hread := (hprogress.mem_scanned before).mpr ⟨steps, Nat.lt_succ_self steps, hreached⟩
    exact .inr ⟨reference, List.mem_flatMap.mpr ⟨before, hread, hlisted⟩, rfl⟩

/-- What is reached with one more step has been found, or stands behind a new
name in a body that waits. -/
theorem found_or_discovered (hdistinct : NamesDistinct module)
    (hresolved : resolve module path query = .ok target)
    (hprogress : Progress module target steps reading scanned waiting)
    (hreached : Reached module target (steps + 1) function) :
    function ∈ scanned ++ waiting
      ∨ function ∈ discovered reading.met (referencesOf module waiting) := by
  cases hreached with
  | start => exact .inl ((hprogress.mem_found _).mpr (.start steps))
  | @step _ before reference declaration hreached hlisted hnext =>
    by_cases hmet : reference.definition.id ∈ reading.met
    · refine .inl ((hprogress.mem_found _).mpr ?_)
      obtain hsame | ⟨earlier, hmem, hsame⟩ := (hprogress.mem_met _).mp hmet
      · -- A reference back to the target leads to the body read first of all.
        have hback := next_eq_of_id_eq_target hdistinct hresolved hlisted hsame
        rw [hsame, ← Option.some.inj (hback.symm.trans hnext)]
        exact .start steps
      · -- A name met before led to this body then, within fewer steps.
        obtain ⟨holder, hread, hlisted'⟩ := List.mem_flatMap.mp hmem
        obtain ⟨fewer, hlt, hreached'⟩ := (hprogress.mem_scanned holder).mp hread
        have hnext' := (next_eq_of_id_eq hdistinct hlisted' hlisted hsame).trans hnext
        rw [← hsame]
        exact (Reached.step hreached' hlisted' hnext').mono hlt
    · refine .inr (mem_discovered ?_ ?_ hmet hnext)
      · intro other hmem hsame
        obtain ⟨holder, -, hlisted'⟩ := List.mem_flatMap.mp hmem
        exact next_eq_of_id_eq hdistinct hlisted' hlisted hsame
      · obtain hread | hwaits := List.mem_append.mp ((hprogress.mem_found before).mpr hreached)
        · have hknown := (hprogress.mem_met _).mpr
            (.inr ⟨reference, List.mem_flatMap.mpr ⟨before, hread, hlisted⟩, rfl⟩)
          exact absurd hknown hmet
        · exact List.mem_flatMap.mpr ⟨before, hwaits, hlisted⟩

/-- What a waiting body leads to is reached with one more step. -/
theorem reached_of_mem_discovered
    (hprogress : Progress module target steps reading scanned waiting)
    (hmem : function ∈ discovered reading.met (referencesOf module waiting)) :
    Reached module target (steps + 1) function := by
  obtain ⟨reference, hmem, hsame, hnext⟩ := exists_reference_of_mem_discovered hmem
  obtain ⟨holder, hwaits, hlisted⟩ := List.mem_flatMap.mp hmem
  have hreached := (hprogress.mem_found holder).mp (List.mem_append_right _ hwaits)
  have hstep := Reached.step hreached hlisted hnext
  rwa [hsame] at hstep

/-- One level reads the bodies that wait, and leaves to wait what it
discovers. -/
theorem level (hdistinct : NamesDistinct module)
    (hresolved : resolve module path query = .ok target)
    (hprogress : Progress module target steps reading scanned waiting) :
    Progress module target (steps + 1) (reading.level module target.id) (scanned ++ waiting)
      (discovered reading.met (referencesOf module waiting)) := by
  let emptied : Reading := { reading with next := [] }
  have hknown : target.id ∈ emptied.met := (hprogress.mem_met _).mpr (.inl rfl)
  have hpass : reading.level module target.id
      = (referencesOf module waiting).foldl (Reading.take target.id) emptied := by
    rw [Reading.level, hprogress.next, List.flatMap_map, referencesOf]
  exact {
    next := by
      rw [hpass, Reading.next_foldl_take _ emptied hknown]
      rfl
    mem_scanned := fun function => by
      rw [hprogress.mem_found]
      constructor
      · exact fun hreached => ⟨steps, Nat.lt_succ_self steps, hreached⟩
      · rintro ⟨fewer, hlt, hreached⟩
        exact hreached.mono (Nat.le_of_lt_succ hlt)
    mem_found := fun function => by
      constructor
      · intro hmem
        obtain hmem | hmem := List.mem_append.mp hmem
        · exact ((hprogress.mem_found function).mp hmem).mono (Nat.le_succ steps)
        · exact hprogress.reached_of_mem_discovered hmem
      · intro hreached
        exact List.mem_append.mpr (hprogress.found_or_discovered hdistinct hresolved hreached)
    nodup := by
      rw [List.map_append, List.nodup_append']
      refine ⟨hprogress.nodup, nodup_discovered _ _, ?_⟩
      intro id hold hnew
      obtain ⟨function, hmem, rfl⟩ := List.mem_map.mp hold
      obtain ⟨other, hfresh, hsame⟩ := List.mem_map.mp hnew
      exact not_mem_met_of_mem_discovered hfresh (hsame ▸ hprogress.id_mem_met hmem)
    mem_met := fun id => by
      rw [hpass, Reading.mem_met_foldl_take _ emptied hknown, hprogress.mem_met, or_assoc,
        referencesOf, referencesOf, referencesOf, List.flatMap_append]
      simp only [List.mem_append, or_and_right, exists_or] }

end Progress

/-- However many levels are read, the bodies read are those of the functions
scanned. -/
theorem exists_progress (hdistinct : NamesDistinct module)
    (hresolved : resolve module path query = .ok target) (steps : Nat) :
    ∃ scanned waiting,
      Progress module target steps
          (Reading.levels module target.id steps (Reading.start target)) scanned waiting
        ∧ scanned.map (·.declaration)
          = Reading.bodies module target.id steps (Reading.start target) := by
  induction steps with
  | zero => exact ⟨_, _, progress_start module target, rfl⟩
  | succ steps ih =>
    obtain ⟨scanned, waiting, hprogress, hread⟩ := ih
    rw [Reading.levels_succ, Reading.bodies_succ, ← hread, hprogress.next, ← List.map_append]
    exact ⟨_, _, hprogress.level hdistinct hresolved, rfl⟩

-- ============================================================ the closure

/-- The bodies read for a closure are those of the functions within reach. -/
theorem exists_functions (hdistinct : NamesDistinct module)
    (hresolved : resolve module path query = .ok target) (depth : Nat) :
    ∃ functions : List Named, (functions.map (·.id)).Nodup
      ∧ functions.map (·.declaration) = bodiesRead module target depth
      ∧ ∀ function, function ∈ functions ↔ Reached module target (depth - 1) function := by
  obtain ⟨scanned, waiting, hprogress, hread⟩ :=
    exists_progress hdistinct hresolved (max depth 1)
  have hnodup := hprogress.nodup
  rw [List.map_append] at hnodup
  refine ⟨scanned, (List.nodup_append'.mp hnodup).1, hread, fun function => ?_⟩
  rw [hprogress.mem_scanned]
  constructor
  · rintro ⟨fewer, hlt, hreached⟩
    exact hreached.mono (by omega)
  · exact fun hreached => ⟨depth - 1, by omega, hreached⟩

/-- A deeper closure reads the bodies of a shallower one first. -/
theorem prefix_bodiesRead (module : Module) (target : Target) (hle : depth ≤ deeper) :
    bodiesRead module target depth <+: bodiesRead module target deeper := by
  have hlevels : max depth 1 ≤ max deeper 1 := by omega
  rw [bodiesRead, bodiesRead]
  generalize max deeper 1 = more at hlevels ⊢
  induction hlevels with
  | refl => exact List.prefix_rfl
  | step _ ih =>
    rw [Reading.bodies_succ]
    exact ih.trans (List.prefix_append _ _)

/-- Where no body is new, the closure is the same. -/
theorem uses_eq_of_settled (hdistinct : NamesDistinct module)
    (hresolved : resolve module path query = .ok target)
    (hsettled : Settled module target (depth - 1)) (hle : depth ≤ deeper) :
    uses module target deeper = uses module target depth := by
  obtain ⟨functions, hnodup, hread, hreached⟩ := exists_functions hdistinct hresolved depth
  obtain ⟨functions', hnodup', hread', hreached'⟩ := exists_functions hdistinct hresolved deeper
  have hsame : functions.Perm functions' := by
    rw [List.perm_ext_iff_of_nodup (hnodup.of_map _) (hnodup'.of_map _)]
    intro function
    rw [hreached, hreached']
    exact ⟨fun hhere => hhere.mono (Nat.sub_le_sub_right hle 1), hsettled.reached⟩
  have hlength : (bodiesRead module target depth).length
      = (bodiesRead module target deeper).length := by
    rw [← hread, ← hread', List.length_map, List.length_map, hsame.length_eq]
  rw [uses_eq_foldl, uses_eq_foldl, (prefix_bodiesRead module target hle).eq_of_length hlength]

/-- The names in a closure are those that bodies within reach refer to. -/
theorem mem_keys_iff_reached (hdistinct : NamesDistinct module)
    (hresolved : resolve module path query = .ok target) (depth : Nat) (key : String) :
    key ∈ (uses module target depth).keys ↔
      ∃ function, Reached module target (depth - 1) function
        ∧ ∃ reference ∈ Reference.inBody module function.declaration,
          reference.definition.id ≠ target.id ∧ reference.definition.id.text = key := by
  obtain ⟨functions, -, hread, hreached⟩ := exists_functions hdistinct hresolved depth
  simp only [mem_keys_uses, ← hread, List.mem_map, exists_exists_and_eq_and, hreached]

/-- What a closure of some depth holds, and what is read for it. -/
structure Covers (module : Module) (target : Target) (depth : Nat) : Prop where
  /-- It has the names that bodies within reach refer to, save the target's. -/
  mem_keys : ∀ key, key ∈ (uses module target depth).keys ↔
    ∃ function, Reached module target (depth - 1) function
      ∧ ∃ reference ∈ Reference.inBody module function.declaration,
        reference.definition.id ≠ target.id ∧ reference.definition.id.text = key
  /-- It is what a single pass over the bodies read collects. -/
  onePass : uses module target depth
    = ((bodiesRead module target depth).flatMap (Reference.inBody module)).foldl
        (record target.id) Catalog.empty
  /-- The body of each function within reach is read once, and no other. -/
  once : ∃ functions : List Named, (functions.map (·.id)).Nodup
    ∧ functions.map (·.declaration) = bodiesRead module target depth
    ∧ ∀ function, function ∈ functions ↔ Reached module target (depth - 1) function
  /-- Nor is a body read under two names, where functions have but one. -/
  nodup : NamesUnique module → (bodiesRead module target depth).Nodup
  /-- However deep, there is an end to the reading. -/
  ends : (bodiesRead module target depth).length ≤ (declarations module).length
  grows : ∀ deeper ≥ depth, (uses module target depth).keys ⊆ (uses module target deeper).keys
  settles : Settled module target (depth - 1) →
    ∀ deeper ≥ depth, uses module target deeper = uses module target depth

theorem covers (hdistinct : NamesDistinct module)
    (hresolved : resolve module path query = .ok target) (depth : Nat) :
    Covers module target depth := by
  obtain ⟨functions, hnodup, hread, hreached⟩ := exists_functions hdistinct hresolved depth
  have hdeclared (function) (hmem : function ∈ functions) :=
    ((hreached function).mp hmem).mem_declarations hresolved
  have hsubset : functions ⊆ declarations module := fun function hmem =>
    (hdeclared function hmem).1
  exact {
    mem_keys := mem_keys_iff_reached hdistinct hresolved depth
    onePass := uses_eq_foldl module target depth
    once := ⟨functions, hnodup, hread, hreached⟩
    nodup := fun hunique => by
      rw [← hread]
      refine List.Nodup.map_on (fun a hmem b hmem' hsame => ?_) (hnodup.of_map _)
      obtain ⟨hplaced, hbody⟩ := hdeclared a hmem
      exact List.inj_on_of_nodup_map hnodup hmem hmem'
        (hunique a hplaced b (hsubset hmem') hbody hsame)
    ends := by
      rw [← hread, List.length_map]
      exact (List.Nodup.subperm (hnodup.of_map _) hsubset).length_le
    grows := fun deeper hle key hmem => by
      obtain ⟨function, hhere, hrefers⟩ :=
        (mem_keys_iff_reached hdistinct hresolved depth key).mp hmem
      exact (mem_keys_iff_reached hdistinct hresolved deeper key).mpr
        ⟨function, hhere.mono (Nat.sub_le_sub_right hle 1), hrefers⟩
    settles := fun hsettled deeper hle => uses_eq_of_settled hdistinct hresolved hsettled hle }

/-- In a module whose declarations have distinct names, a closure holds what the
functions within reach refer to, at every depth; and from some depth on it is
the same. In a module that is loaded, no body is read twice for it. -/
theorem uses_covers (hdistinct : NamesDistinct module)
    (hresolved : resolve module path query = .ok target) :
    (∀ depth, Covers module target depth)
      ∧ (∀ depth ≥ (declarations module).length,
        uses module target depth = uses module target (declarations module).length)
      ∧ ∀ disk root, disk.WellFormed → load disk root = .ok module →
        ∀ depth, (bodiesRead module target depth).Nodup := by
  have hcovers := covers hdistinct hresolved
  refine ⟨hcovers, fun depth hge => ?_, fun disk root hdisk hload depth =>
    (hcovers depth).nodup (namesUnique_of_load hdisk hload)⟩
  obtain ⟨fewer, hlt, hsettled⟩ := exists_settled hresolved
  refine uses_eq_of_settled hdistinct hresolved ?_ hge
  exact fun function hreached => (hsettled.reached hreached).mono (Nat.le_sub_one_of_lt hlt)

theorem eq_ok_get {ε α : Type} {result : Except ε α} (hok : result.toOption.isSome = true) :
    result = .ok (result.toOption.get hok) := by
  cases result with
  | error => cases hok
  | ok => rfl

theorem load_parity : parityDisk.WellFormed ∧ load parityDisk "/parity" = .ok parity := by
  rw [parity, parityDisk, show paritySource = _ from
    Text.toList_append_literal (Text.toList_append_literal String.toList_ofList)]
  refine ⟨by decide +kernel, ?_⟩
  refine load_of_ordered ?_ ?_ ?_ ?_ ?_ <;> decide +kernel

theorem uses_covers_parity : NamesDistinct parity
    ∧ resolve parity "parity.go" "Even" = .ok evenTarget
    ∧ (uses parity evenTarget 1).keys = ["parity.Count", "parity.Odd"]
    ∧ (∀ depth, Covers parity evenTarget depth)
    ∧ (∀ depth ≥ (declarations parity).length,
      uses parity evenTarget depth = uses parity evenTarget (declarations parity).length)
    ∧ ∀ depth, (bodiesRead parity evenTarget depth).Nodup := by
  obtain ⟨hnodup, hevery⟩ : ((declarations parity).map (·.id)).Nodup
      ∧ ∀ target ∈ (resolve parity "parity.go" "Even").toOption,
        (uses parity target 1).keys = ["parity.Count", "parity.Odd"] := by
    rw [parity, parityDisk, show paritySource = _ from
      Text.toList_append_literal (Text.toList_append_literal String.toList_ofList)]
    decide +kernel
  have hdistinct : NamesDistinct parity := namesDistinct_of_nodup hnodup
  have hresolved : resolve parity "parity.go" "Even" = .ok evenTarget := eq_ok_get _
  obtain ⟨hdisk, hload⟩ := load_parity
  obtain ⟨hcovers, hsettles, honce⟩ := uses_covers hdistinct hresolved
  exact ⟨hdistinct, hresolved, hevery evenTarget (Option.get_mem _), hcovers, hsettles,
    honce parityDisk "/parity" hdisk hload⟩

end Assay.Focal
