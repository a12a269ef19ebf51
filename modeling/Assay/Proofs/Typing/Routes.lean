/-
The ways that lead from a type into what it embeds, and which of them the search
takes. A route says which of the pending types to enter, then which of the types
embedded there, and so on; it enters no type twice. The search finds what stands
at the end of the first route in dictionary order, the shorter before the longer
(`search_first`).

The search has one list of fresh types for all of its branches, so a later
branch may not enter what an earlier one has seen. Nothing is lost by that: a
route through a type that was entered in vain can be cut off there, and its end
is then reached from that type, on a route that the search has passed.

Depth is counted in embedded fields. A type is also reached on ways that turn in
circles; leaving out the circles makes a route that is no deeper.
-/
import Assay.Proofs.Typing.Declared

namespace Assay.Typing

open Assay.Syntax Assay.Source

variable {α : Type} {module : Module} {embedded : Declaration → List Tree}
  {found? : TypeRef → Package → Declaration → Option α} {fresh : List TypeKey}
  {owner other part type : TypeRef} {pending more : List TypeRef}

-- ============================================================= the types

/-- The types that a type embeds. -/
def taken (module : Module) (embedded : Declaration → List Tree) (owner : TypeRef) :
    List TypeRef :=
  match typeSpec? module owner with
  | none => []
  | some (_, spec) => resolveAll module spec (embedded spec)

/-- What a type offers itself. -/
def offer? (module : Module) (found? : TypeRef → Package → Declaration → Option α)
    (owner : TypeRef) : Option α :=
  match typeSpec? module owner with
  | none => none
  | some (package, spec) => found? owner package spec

/-- How much deeper the types are that a type embeds. What an interface takes in
is no deeper than itself. -/
def hop (module : Module) (owner : TypeRef) : Nat :=
  match typeSpec? module owner with
  | some (_, spec) => if isInterface spec then 0 else 1
  | none => 1

theorem typeSpec?_congr (hkey : owner.key = other.key) :
    typeSpec? module owner = typeSpec? module other := by
  obtain ⟨hpackage, hname⟩ := Prod.mk.inj hkey
  rw [typeSpec?, hpackage, hname, typeSpec?]

theorem taken_congr (hkey : owner.key = other.key) :
    taken module embedded owner = taken module embedded other := by
  rw [taken, typeSpec?_congr hkey, taken]

/-- What is looked for depends on the declaration alone, not on whether it was
reached through a pointer. -/
def ByKey (found? : TypeRef → Package → Declaration → Option α) : Prop :=
  ∀ owner other : TypeRef, owner.key = other.key → found? owner = found? other

theorem ByKey.offer?_congr (byKey : ByKey found?) (hkey : owner.key = other.key) :
    offer? module found? owner = offer? module found? other := by
  rw [offer?, typeSpec?_congr hkey, byKey owner other hkey, offer?]

-- ============================================================ the search

@[simp]
theorem search_nil : search module found? embedded fresh [] = none := by
  unfold search
  cases fresh.length <;> rfl

/-- A type that was entered before is passed over. -/
theorem search_stale (hstale : owner.key ∉ fresh) :
    search module found? embedded fresh (owner :: pending)
      = search module found? embedded fresh pending := by
  unfold search
  cases fresh.length with
  | zero => rfl
  | succ entries =>
      rw [searchWithin, searchWithin, List.dropWhile_cons_of_pos (by simpa using hstale)]

/-- A fresh type is entered: what it offers is the answer, and if it offers
nothing, what it embeds comes next. -/
theorem search_fresh (hfresh : owner.key ∈ fresh) :
    search module found? embedded fresh (owner :: pending)
      = (offer? module found? owner).or (search module found? embedded (fresh.erase owner.key)
          (taken module embedded owner ++ pending)) := by
  have hlength : fresh.length = (fresh.erase owner.key).length + 1 := by
    have hsome := List.length_pos_of_mem hfresh
    rw [List.length_erase_of_mem hfresh]
    omega
  unfold search offer? taken
  rw [hlength, searchWithin, List.dropWhile_cons_of_neg (by simpa using hfresh)]
  cases hdeclared : typeSpec? module owner with
  | none => simp [hdeclared]
  | some declared =>
      cases hfound : found? owner declared.1 declared.2 with
      | none => simp [hdeclared, hfound]
      | some answer => simp [hdeclared, hfound]

/-- Every step of a search passes a pending type over or enters a fresh one, and
with fewer fresh ones all is known of whatever is pending then. -/
theorem search_induction {motive : List TypeKey → List TypeRef → Prop}
    (nil : ∀ fresh, motive fresh [])
    (stale : ∀ fresh owner pending, owner.key ∉ fresh → motive fresh pending →
      motive fresh (owner :: pending))
    (enter : ∀ fresh owner pending, owner.key ∈ fresh →
      (∀ next, motive (fresh.erase owner.key) next) → motive fresh (owner :: pending))
    (fresh : List TypeKey) (pending : List TypeRef) : motive fresh pending := by
  induction hlength : fresh.length generalizing fresh pending with
  | zero =>
      obtain rfl := List.eq_nil_of_length_eq_zero hlength
      induction pending with
      | nil => exact nil []
      | cons owner pending ih => exact stale [] owner pending List.not_mem_nil ih
  | succ length ih =>
      induction pending with
      | nil => exact nil fresh
      | cons owner pending ihPending =>
          by_cases hfresh : owner.key ∈ fresh
          · refine enter fresh owner pending hfresh fun next => ih _ next ?_
            rw [List.length_erase_of_mem hfresh, hlength]
            rfl
          · exact stale fresh owner pending hfresh ihPending

-- ============================================================ the routes

/-- A route through the types of a forest: the places to enter it at, one after
the other, how deep it leads, and the type at its end. Only free types are
entered, and none of them twice. -/
inductive Route (module : Module) (embedded : Declaration → List Tree) :
    (free : TypeKey → Prop) → List TypeRef → List Nat → Nat → TypeRef → Prop where
  | stop {free : TypeKey → Prop} {pending : List TypeRef} {i : Nat} {type : TypeRef} :
    pending[i]? = some type → free type.key → Route module embedded free pending [i] 0 type
  | enter {free : TypeKey → Prop} {pending : List TypeRef} {i : Nat} {owner : TypeRef}
      {route : List Nat} {depth : Nat} {type : TypeRef} :
    pending[i]? = some owner → free owner.key →
    Route module embedded (fun key => free key ∧ key ≠ owner.key) (taken module embedded owner)
      route depth type →
    Route module embedded free pending (i :: route) (hop module owner + depth) type

namespace Route

variable {free wide : TypeKey → Prop} {route rest : List Nat} {i j depth : Nat}

theorem exists_cons (leads : Route module embedded free pending route depth type) :
    ∃ i rest, route = i :: rest := by
  cases leads with
  | stop => exact ⟨_, _, rfl⟩
  | enter => exact ⟨_, _, rfl⟩

theorem mono (leads : Route module embedded free pending route depth type)
    (hwide : ∀ key, free key → wide key) :
    Route module embedded wide pending route depth type := by
  induction leads generalizing wide with
  | stop hat hfree => exact .stop hat (hwide _ hfree)
  | enter hat hfree _ ih =>
      exact .enter hat (hwide _ hfree) (ih fun key hkey => ⟨hwide key hkey.1, hkey.2⟩)

theorem lt_length (leads : Route module embedded free pending (i :: rest) depth type) :
    i < pending.length := by
  cases leads with
  | stop hat _ => exact (List.getElem?_eq_some_iff.mp hat).1
  | enter hat _ _ => exact (List.getElem?_eq_some_iff.mp hat).1

/-- A route goes on alike in another forest that has the same type at another
place. -/
theorem move (leads : Route module embedded free pending (i :: rest) depth type)
    (hat : more[j]? = pending[i]?) : Route module embedded free more (j :: rest) depth type := by
  cases leads with
  | stop hthere hfree => exact .stop (hat.trans hthere) hfree
  | enter hthere hfree hrest => exact .enter (hat.trans hthere) hfree hrest

/-- A route avoids a type, or ends there, or can be begun there. -/
theorem through (leads : Route module embedded free pending route depth type) (owner : TypeRef) :
    Route module embedded (fun key => free key ∧ key ≠ owner.key) pending route depth type
      ∨ type.key = owner.key
      ∨ ∃ rest less, Route module embedded (fun key => free key ∧ key ≠ owner.key)
          (taken module embedded owner) rest less type ∧ less ≤ depth := by
  induction leads with
  | @stop free pending i type hat hfree =>
      by_cases hsame : type.key = owner.key
      · exact .inr (.inl hsame)
      · exact .inl (.stop hat ⟨hfree, hsame⟩)
  | @enter free pending i entered route depth type hat hfree hroute ih =>
      by_cases hsame : entered.key = owner.key
      · rw [hsame, taken_congr hsame] at hroute
        exact .inr (.inr ⟨_, _, hroute, Nat.le_add_left _ _⟩)
      · rcases ih with havoids | hends | ⟨rest, less, hrest, hless⟩
        · refine .inl (.enter hat ⟨hfree, hsame⟩ (havoids.mono ?_))
          exact fun key hkey => ⟨⟨hkey.1.1, hkey.2⟩, hkey.1.2⟩
        · exact .inr (.inl hends)
        · refine .inr (.inr ⟨rest, less, hrest.mono ?_, by omega⟩)
          exact fun key hkey => ⟨hkey.1.1, hkey.2⟩

/-- A route has one end, at one depth. -/
theorem unique (leads : Route module embedded free pending route depth type) {depth' : Nat}
    {type' : TypeRef} (leads' : Route module embedded wide pending route depth' type') :
    depth = depth' ∧ type = type' := by
  induction leads generalizing wide depth' with
  | stop hat _ =>
      cases leads' with
      | stop hat' _ => exact ⟨rfl, Option.some.inj (hat.symm.trans hat')⟩
      | enter _ _ hrest =>
          obtain ⟨_, _, hcons⟩ := hrest.exists_cons
          cases hcons
  | enter hat _ hrest ih =>
      cases leads' with
      | stop _ _ =>
          obtain ⟨_, _, hcons⟩ := hrest.exists_cons
          cases hcons
      | enter hat' _ hrest' =>
          obtain rfl := Option.some.inj (hat.symm.trans hat')
          obtain ⟨rfl, rfl⟩ := ih hrest'
          exact ⟨rfl, rfl⟩

end Route

-- ======================================================= the first route

/-- A route through a type's `count` embedded ones and the types after it, as a
route through that type and the types after it. -/
def fromBefore (count : Nat) : List Nat → List Nat
  | [] => []
  | i :: rest => if i < count then 0 :: i :: rest else (i - count + 1) :: rest

/-- Routes keep their order. -/
theorem fromBefore_le {count : Nat} {i j : Nat} {rest more : List Nat} (hle : i :: rest ≤ j :: more) :
    fromBefore count (i :: rest) ≤ fromBefore count (j :: more) := by
  rw [cons_le_cons_iff] at hle
  rw [fromBefore, fromBefore]
  by_cases hi : i < count <;> by_cases hj : j < count
  · rw [if_pos hi, if_pos hj, cons_le_cons_iff, cons_le_cons_iff]
    exact .inr ⟨rfl, hle⟩
  · rw [if_pos hi, if_neg hj, cons_le_cons_iff]
    exact .inl (Nat.succ_pos _)
  · omega
  · rw [if_neg hi, if_neg hj, cons_le_cons_iff]
    rcases hle with hlt | ⟨rfl, hrest⟩
    · exact .inl (by omega)
    · exact .inr ⟨rfl, hrest⟩

namespace Route

variable {route rest : List Nat} {depth : Nat}

theorem of_erase (hnodup : fresh.Nodup) {key : TypeKey}
    (leads : Route module embedded (· ∈ fresh.erase key) pending route depth type) :
    Route module embedded (fun other => other ∈ fresh ∧ other ≠ key) pending route depth type :=
  leads.mono fun _ hmem => (hnodup.mem_erase_iff.mp hmem).symm

theorem to_erase (hnodup : fresh.Nodup) {key : TypeKey}
    (leads : Route module embedded (fun other => other ∈ fresh ∧ other ≠ key) pending route depth
      type) :
    Route module embedded (· ∈ fresh.erase key) pending route depth type :=
  leads.mono fun _ hkey => hnodup.mem_erase_iff.mpr hkey.symm

/-- The routes once a type is entered are routes from before. -/
theorem before (hnodup : fresh.Nodup) (hfresh : owner.key ∈ fresh)
    (leads : Route module embedded (· ∈ fresh.erase owner.key)
      (taken module embedded owner ++ pending) route depth type) :
    ∃ deeper, Route module embedded (· ∈ fresh) (owner :: pending)
      (fromBefore (taken module embedded owner).length route) deeper type := by
  obtain ⟨i, rest, rfl⟩ := leads.exists_cons
  rw [fromBefore]
  by_cases hi : i < (taken module embedded owner).length
  · rw [if_pos hi]
    have hrest : Route module embedded _ (taken module embedded owner) (i :: rest) depth type :=
      (leads.of_erase hnodup).move (List.getElem?_append_left hi).symm
    exact ⟨_, .enter rfl hfresh hrest⟩
  · rw [if_neg hi]
    have hlate : (owner :: pending)[i - (taken module embedded owner).length + 1]?
        = (taken module embedded owner ++ pending)[i]? := by
      rw [List.getElem?_cons_succ, List.getElem?_append_right (by omega)]
    exact ⟨_, (leads.mono fun _ hmem => List.mem_of_mem_erase hmem).move hlate⟩

/-- Once a type is entered in vain, what a route leads to is reached on a route
that is no later. -/
theorem after (byKey : ByKey found?) (hnodup : fresh.Nodup)
    (hvain : offer? module found? owner = none)
    (leads : Route module embedded (· ∈ fresh) (owner :: pending) route depth type)
    (hoffers : (offer? module found? type).isSome = true) :
    ∃ other less, Route module embedded (· ∈ fresh.erase owner.key)
        (taken module embedded owner ++ pending) other less type
      ∧ fromBefore (taken module embedded owner).length other ≤ route := by
  have hother : type.key ≠ owner.key := by
    intro hsame
    rw [byKey.offer?_congr hsame, hvain] at hoffers
    cases hoffers
  obtain ⟨i, rest, rfl⟩ := leads.exists_cons
  cases i with
  | zero =>
      cases leads with
      | stop hat _ =>
          obtain rfl := Option.some.inj hat
          exact absurd rfl hother
      | enter hat _ hrest =>
          obtain rfl := Option.some.inj hat
          obtain ⟨j, more, rfl⟩ := hrest.exists_cons
          have hj := hrest.lt_length
          refine ⟨j :: more, _, (hrest.to_erase hnodup).move (List.getElem?_append_left hj), ?_⟩
          rw [fromBefore, if_pos hj]
  | succ i =>
      have hlater : Route module embedded (· ∈ fresh) pending (i :: rest) depth type :=
        leads.move List.getElem?_cons_succ.symm
      rcases hlater.through owner with havoids | hends | ⟨again, less, hagain, -⟩
      · have hat : (taken module embedded owner ++ pending)[
            (taken module embedded owner).length + i]? = pending[i]? := by
          rw [List.getElem?_append_right (Nat.le_add_right _ _), Nat.add_sub_cancel_left]
        refine ⟨_, _, (havoids.to_erase hnodup).move hat, ?_⟩
        rw [fromBefore, if_neg (by omega), Nat.add_sub_cancel_left]
      · exact absurd hends hother
      · obtain ⟨j, more, rfl⟩ := hagain.exists_cons
        have hj := hagain.lt_length
        refine ⟨j :: more, _, (hagain.to_erase hnodup).move (List.getElem?_append_left hj), ?_⟩
        rw [fromBefore, if_pos hj, cons_le_cons_iff]
        exact .inl (Nat.succ_pos i)

end Route

/-- There is no route through an empty forest. -/
theorem Route.not_nil {free : TypeKey → Prop} {route : List Nat} {depth : Nat} :
    ¬ Route module embedded free [] route depth type := by
  intro leads
  obtain ⟨i, rest, rfl⟩ := leads.exists_cons
  exact absurd leads.lt_length (Nat.not_lt_zero i)

/-- Where the first type is not free, routes begin at a later one. -/
theorem Route.of_stale {free : TypeKey → Prop} {route : List Nat} {depth : Nat}
    (leads : Route module embedded free (owner :: pending) route depth type)
    (hstale : ¬ free owner.key) : ∃ i rest, route = (i + 1) :: rest
      ∧ Route module embedded free pending (i :: rest) depth type := by
  obtain ⟨i, rest, rfl⟩ := leads.exists_cons
  cases i with
  | zero =>
      cases leads with
      | stop hat hfree =>
          obtain rfl := Option.some.inj hat
          exact absurd hfree hstale
      | enter hat hfree _ =>
          obtain rfl := Option.some.inj hat
          exact absurd hfree hstale
  | succ i => exact ⟨i, rest, rfl, leads.move List.getElem?_cons_succ.symm⟩

variable {answer : α}

/-- A search that finds nothing leaves nothing to be found. -/
theorem search_eq_none (byKey : ByKey found?) (hnodup : fresh.Nodup)
    (hnone : search module found? embedded fresh pending = none) {route : List Nat} {depth : Nat}
    (leads : Route module embedded (· ∈ fresh) pending route depth type) :
    offer? module found? type = none := by
  induction fresh, pending using search_induction generalizing route depth type with
  | nil fresh => exact absurd leads Route.not_nil
  | stale fresh owner pending hstale ih =>
      rw [search_stale hstale] at hnone
      obtain ⟨i, rest, -, hlater⟩ := leads.of_stale hstale
      exact ih hnodup hnone hlater
  | enter fresh owner pending hfresh ih =>
      rw [search_fresh hfresh, Option.or_eq_none_iff] at hnone
      rw [← Option.not_isSome_iff_eq_none]
      intro hoffers
      obtain ⟨other, less, hother, -⟩ := leads.after byKey hnodup hnone.1 hoffers
      rw [ih _ (hnodup.erase _) hnone.2 hother] at hoffers
      cases hoffers

/-- A search finds what stands at the end of the first route. -/
theorem search_eq_some (byKey : ByKey found?) (hnodup : fresh.Nodup)
    (hsome : search module found? embedded fresh pending = some answer) :
    ∃ route depth type, Route module embedded (· ∈ fresh) pending route depth type
      ∧ offer? module found? type = some answer
      ∧ ∀ other depth' type', Route module embedded (· ∈ fresh) pending other depth' type' →
        (offer? module found? type').isSome = true → route ≤ other := by
  induction fresh, pending using search_induction with
  | nil fresh =>
      rw [search_nil] at hsome
      cases hsome
  | stale fresh owner pending hstale ih =>
      rw [search_stale hstale] at hsome
      obtain ⟨route, depth, type, leads, hoffer, hfirst⟩ := ih hnodup hsome
      obtain ⟨i, rest, rfl⟩ := leads.exists_cons
      refine ⟨(i + 1) :: rest, depth, type, leads.move List.getElem?_cons_succ, hoffer, ?_⟩
      intro other depth' type' hother hoffers
      obtain ⟨j, more, rfl, hlater⟩ := hother.of_stale hstale
      have hle := hfirst _ _ _ hlater hoffers
      rw [cons_le_cons_iff] at hle ⊢
      rcases hle with hlt | ⟨rfl, hrest⟩
      · exact .inl (Nat.succ_lt_succ hlt)
      · exact .inr ⟨rfl, hrest⟩
  | enter fresh owner pending hfresh ih =>
      rw [search_fresh hfresh] at hsome
      cases hoffer : offer? module found? owner with
      | some found =>
          rw [hoffer, Option.some_or] at hsome
          refine ⟨[0], 0, owner, .stop rfl hfresh, hoffer.trans hsome, ?_⟩
          intro other depth' type' hother _
          obtain ⟨j, more, rfl⟩ := hother.exists_cons
          rw [cons_le_cons_iff]
          rcases Nat.eq_zero_or_pos j with rfl | hpos
          · exact .inr ⟨rfl, not_lt.mp (List.not_lt_nil _)⟩
          · exact .inl hpos
      | none =>
          rw [hoffer, Option.none_or] at hsome
          obtain ⟨route, depth, type, leads, hfound, hfirst⟩ := ih _ (hnodup.erase _) hsome
          obtain ⟨deeper, hbefore⟩ := leads.before hnodup hfresh
          refine ⟨_, deeper, type, hbefore, hfound, ?_⟩
          intro other depth' type' hother hoffers
          obtain ⟨next, less, hnext, hle⟩ := hother.after byKey hnodup hoffer hoffers
          have hafter := hfirst _ _ _ hnext hoffers
          obtain ⟨i, rest, rfl⟩ := leads.exists_cons
          obtain ⟨j, more, rfl⟩ := hnext.exists_cons
          exact le_trans (fromBefore_le hafter) hle

-- ================================================================= depth

/-- A type is reached from another by as many embedded fields, on any way. -/
inductive Reaches (module : Module) (embedded : Declaration → List Tree) :
    TypeRef → Nat → TypeRef → Prop where
  | self {owner : TypeRef} : Reaches module embedded owner 0 owner
  | embed {owner part : TypeRef} {depth : Nat} {type : TypeRef} :
    part ∈ taken module embedded owner → Reaches module embedded part depth type →
    Reaches module embedded owner (hop module owner + depth) type

/-- A route reaches its end. -/
theorem Route.reaches {free : TypeKey → Prop} {route : List Nat} {depth : Nat}
    (leads : Route module embedded free pending route depth type) :
    ∃ owner ∈ pending, Reaches module embedded owner depth type := by
  induction leads with
  | stop hat _ => exact ⟨_, List.mem_of_getElem? hat, .self⟩
  | enter hat _ _ ih =>
      obtain ⟨part, hpart, hreaches⟩ := ih
      exact ⟨_, List.mem_of_getElem? hat, .embed hpart hreaches⟩

/-- What is reached is reached on a route that is no deeper. -/
theorem Reaches.exists_route {depth : Nat} (reaches : Reaches module embedded owner depth type) :
    ∃ route less type', Route module embedded (fun _ => True) [owner] route less type'
      ∧ type'.key = type.key ∧ less ≤ depth := by
  induction reaches with
  | @self owner => exact ⟨[0], 0, owner, .stop rfl trivial, rfl, Nat.le_refl _⟩
  | @embed owner part depth type hpart _ ih =>
      obtain ⟨route, less, type', leads, hkey, hless⟩ := ih
      obtain ⟨i, rest, rfl⟩ := leads.exists_cons
      obtain ⟨j, hj⟩ := List.getElem?_of_mem hpart
      have hi : i = 0 := Nat.lt_one_iff.mp leads.lt_length
      subst hi
      have hmoved : Route module embedded (fun _ => True) (taken module embedded owner) (j :: rest)
          less type' := leads.move hj
      rcases hmoved.through owner with havoids | hends | ⟨again, shorter, hagain, hshorter⟩
      · exact ⟨0 :: j :: rest, _, type', .enter rfl trivial havoids, hkey, by omega⟩
      · exact ⟨[0], 0, owner, .stop rfl trivial, hends.symm.trans hkey, Nat.zero_le _⟩
      · exact ⟨0 :: again, _, type', .enter rfl trivial hagain, hkey, by omega⟩

end Assay.Typing
