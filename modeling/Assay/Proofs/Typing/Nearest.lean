/-
Which member a selection takes, of all that have its name. A selection tries
methods before fields, and of either it takes the first on the routes through
the embedded types. The language wants the nearest: the one that lies under the
fewest embedded fields, method or field.

`member?_nearest_iff` says when the two agree. A nearer member is passed over
when it is a field and there is a method, and when it stands on a later route
than a deeper one of its kind; nothing else is passed over.
-/
import Assay.Focal.Usage
import Assay.Proofs.Source.Load
import Assay.Proofs.Typing.Routes
import Mathlib.Data.Nat.Find

namespace Assay.Typing

open Assay.Syntax Assay.Source

variable {α : Type} {disk : Disk} {root name : String} {module : Module}
  {embedded : Declaration → List Tree}
  {found? : TypeRef → Package → Declaration → Option α} {owner type : TypeRef}

-- =========================================================== known types

theorem mem_typeNames {package : Package} {spec : Declaration}
    (hfound : package.findType? name = some spec) : name ∈ typeNames package := by
  obtain ⟨group, hgroup, hmem⟩ := List.mem_flatMap.mp (List.mem_of_find?_eq_some hfound)
  obtain ⟨node, hnode, rfl⟩ := List.mem_map.mp hmem
  have hfits := List.find?_some hfound
  rw [Bool.and_eq_true] at hfits
  refine List.mem_flatMap.mpr ⟨group, hgroup, List.mem_filterMap.mpr ⟨node, ?_, ?_⟩⟩
  · exact List.mem_filter.mpr ⟨hnode, hfits.1⟩
  · exact name?_of_isNamed hfits.2

/-- A type with a declaration is among the types of the module. -/
theorem key_mem_typeKeys (hload : load disk root = .ok module)
    (hdeclared : (typeSpec? module type).isSome = true) : type.key ∈ typeKeys module := by
  obtain ⟨⟨package, spec⟩, hdeclared⟩ := Option.isSome_iff_exists.mp hdeclared
  obtain ⟨held, hloaded, hfound⟩ := Option.bind_eq_some_iff.mp hdeclared
  obtain ⟨spec', hfound, hsame⟩ := Option.map_eq_some_iff.mp hfound
  have hid := id_of_package? hload hloaded
  refine List.mem_eraseDups.mpr (List.mem_flatMap.mpr
    ⟨held, mem_allPackages_of_package? hloaded, List.mem_map.mpr ⟨type.name, ?_, ?_⟩⟩)
  · exact mem_typeNames hfound
  · rw [hid]
    rfl

theorem isSome_typeSpec?_of_offer? (hoffers : (offer? module found? type).isSome = true) :
    (typeSpec? module type).isSome = true := by
  unfold offer? at hoffers
  split at hoffers
  · cases hoffers
  · next hdeclared =>
      rw [hdeclared]
      rfl

/-- A route to a type with a declaration enters only such types. -/
theorem Route.of_known {free known : TypeKey → Prop} {pending : List TypeRef} {route : List Nat}
    {depth : Nat} (leads : Route module embedded free pending route depth type)
    (hknown : ∀ type, (typeSpec? module type).isSome = true → known type.key)
    (hdeclared : (typeSpec? module type).isSome = true) :
    Route module embedded (fun key => free key ∧ known key) pending route depth type := by
  induction leads with
  | stop hat hfree => exact .stop hat ⟨hfree, hknown _ hdeclared⟩
  | @enter free pending i entered route depth type hat hfree hrest ih =>
      refine .enter hat ⟨hfree, hknown _ ?_⟩ ((ih hdeclared).mono ?_)
      · by_contra hnone
        rw [Bool.not_eq_true, Option.isSome_eq_false_iff, Option.isNone_iff_eq_none] at hnone
        rw [taken, hnone] at hrest
        exact hrest.not_nil
      · exact fun key hkey => ⟨⟨hkey.1.1, hkey.2⟩, hkey.1.2⟩

-- ============================================ the search, for all types

/-- The first route to what the search finds is the first of all. -/
theorem exists_first (hload : load disk root = .ok module) (byKey : ByKey found?) {answer : α}
    (hsome : search module found? embedded (typeKeys module) [owner] = some answer) :
    ∃ route depth type, Route module embedded (fun _ => True) [owner] route depth type
      ∧ offer? module found? type = some answer
      ∧ ∀ other depth' type', Route module embedded (fun _ => True) [owner] other depth' type' →
        (offer? module found? type').isSome = true → route ≤ other := by
  obtain ⟨route, depth, type, leads, hoffer, hfirst⟩ :=
    search_eq_some byKey (nodup_eraseDups _) hsome
  refine ⟨route, depth, type, leads.mono fun _ _ => trivial, hoffer, ?_⟩
  intro other depth' type' hother hoffers
  have hknown := hother.of_known (fun _ => key_mem_typeKeys hload)
    (isSome_typeSpec?_of_offer? hoffers)
  exact hfirst other depth' type' (hknown.mono fun _ hkey => hkey.2) hoffers

/-- Where the search finds nothing, nothing is reached. -/
theorem offer?_eq_none (hload : load disk root = .ok module) (byKey : ByKey found?)
    (hnone : search module found? embedded (typeKeys module) [owner] = none) {depth : Nat}
    (reaches : Reaches module embedded owner depth type) : offer? module found? type = none := by
  obtain ⟨route, less, type', leads, hkey, -⟩ := reaches.exists_route
  rw [← byKey.offer?_congr hkey, ← Option.not_isSome_iff_eq_none]
  intro hoffers
  have hknown := leads.of_known (fun _ => key_mem_typeKeys hload)
    (isSome_typeSpec?_of_offer? hoffers)
  rw [search_eq_none byKey (nodup_eraseDups _) hnone (hknown.mono fun _ hkey => hkey.2)] at hoffers
  cases hoffers

-- ============================================================== members

/-- What a selection can lead to. -/
inductive Member where
  | method (method : Method)
  | field (field : Field)

/-- The member that a selection takes. -/
def member? (module : Module) (owner : TypeRef) (name : String) : Option Member :=
  match method? module owner name with
  | some method => some (.method method)
  | none => (field? module owner name).map .field

namespace Member

/-- The types that bring along members of the kind. -/
def sources : Member → Declaration → List Tree
  | method _ => methodSources
  | field _ => embeddedFields

def isMethod : Member → Bool
  | method _ => true
  | field _ => false

/-- The type declares the member itself. -/
def IsOwn (module : Module) (name : String) (type : TypeRef) : Member → Prop
  | method own => offer? module (ownMethod? name) type = some own
  | field own => offer? module (ownField? module name) type = some own

end Member

/-- A selection from a value is a reference to the member. -/
theorem ofValueSelector_eq (scope : Scope) (operand : Tree) (name : String) :
    Focal.Reference.ofValueSelector scope operand name
      = match scope.infer? operand with
        | none => []
        | some owner => match member? scope.context.module owner name with
          | some (.method method) => Focal.Reference.ofMethod owner method
          | some (.field field) =>
            ((field.context.resolve? field.type).bind
              (Focal.Reference.toTypeRef? scope.context.module)).toList
          | none => [] := by
  unfold Focal.Reference.ofValueSelector member?
  cases scope.infer? operand with
  | none => rfl
  | some owner =>
      cases hmethod : method? scope.context.module owner name with
      | some method => simp [hmethod]
      | none =>
          cases hfield : field? scope.context.module owner name with
          | none => simp [hmethod, hfield]
          | some field => simp [hmethod, hfield]

theorem byKey_ownMethod? (name : String) : ByKey (ownMethod? name) := by
  intro owner other hkey
  funext package spec
  rw [ownMethod?, (Prod.mk.inj hkey).2, ownMethod?]

theorem byKey_ownField? (module : Module) (name : String) : ByKey (ownField? module name) :=
  fun _ _ _ => rfl

variable {member : Member} {route : List Nat} {depth : Nat}

/-- The owner has the member, its own or under as many embedded fields. -/
def MemberAt (module : Module) (owner : TypeRef) (name : String) (depth : Nat)
    (member : Member) : Prop :=
  ∃ type, Reaches module member.sources owner depth type ∧ member.IsOwn module name type

/-- A route leads from the owner to the member. -/
def LeadsTo (module : Module) (owner : TypeRef) (name : String) (route : List Nat) (depth : Nat)
    (member : Member) : Prop :=
  ∃ type, Route module member.sources (fun _ => True) [owner] route depth type
    ∧ member.IsOwn module name type

/-- No member of the name is nearer to the owner. -/
def Nearest (module : Module) (owner : TypeRef) (name : String) (member : Member) : Prop :=
  ∃ depth, MemberAt module owner name depth member
    ∧ ∀ otherDepth other, MemberAt module owner name otherDepth other → depth ≤ otherDepth

/-- The route is the first to a member of its kind, and a field comes only where
there is no method. -/
structure Selected (module : Module) (owner : TypeRef) (name : String) (member : Member)
    (route : List Nat) : Prop where
  leads : ∃ depth, LeadsTo module owner name route depth member
  first : ∀ other otherRoute otherDepth, other.isMethod = member.isMethod →
    LeadsTo module owner name otherRoute otherDepth other → route ≤ otherRoute
  methods : member.isMethod = false → ∀ depth method,
    ¬ MemberAt module owner name depth (.method method)

/-- A member that is nearer than the one selected stands on a later route, or is
a field where the other is a method. -/
def PassedOver (module : Module) (owner : TypeRef) (name : String) (member : Member)
    (route : List Nat) : Prop :=
  ∃ other otherRoute otherDepth, LeadsTo module owner name otherRoute otherDepth other
    ∧ (∀ depth, MemberAt module owner name depth member → otherDepth < depth)
    ∧ (member.isMethod = true ∧ other.isMethod = false
      ∨ other.isMethod = member.isMethod ∧ route < otherRoute)

theorem LeadsTo.memberAt (leads : LeadsTo module owner name route depth member) :
    MemberAt module owner name depth member := by
  obtain ⟨type, hroute, hown⟩ := leads
  obtain ⟨start, hstart, hreaches⟩ := hroute.reaches
  obtain rfl := List.mem_singleton.mp hstart
  exact ⟨type, hreaches, hown⟩

theorem Member.IsOwn.congr {other : TypeRef} (own : member.IsOwn module name type)
    (hkey : other.key = type.key) : member.IsOwn module name other := by
  cases member with
  | method method => exact ((byKey_ownMethod? name).offer?_congr hkey).trans own
  | field field => exact ((byKey_ownField? module name).offer?_congr hkey).trans own

theorem MemberAt.exists_leadsTo (has : MemberAt module owner name depth member) :
    ∃ route less, LeadsTo module owner name route less member ∧ less ≤ depth := by
  obtain ⟨type, hreaches, hown⟩ := has
  obtain ⟨route, less, type', hroute, hkey, hless⟩ := hreaches.exists_route
  exact ⟨route, less, ⟨type', hroute, hown.congr hkey⟩, hless⟩

/-- A route leads to one member of a kind. -/
theorem LeadsTo.unique {other : Member} {otherDepth : Nat}
    (leads : LeadsTo module owner name route depth member)
    (others : LeadsTo module owner name route otherDepth other)
    (hkind : other.isMethod = member.isMethod) : depth = otherDepth ∧ member = other := by
  obtain ⟨type, hroute, hown⟩ := leads
  obtain ⟨type', hroute', hown'⟩ := others
  cases member with
  | method method =>
      cases other with
      | field field => cases hkind
      | method other =>
          obtain ⟨hdepth, rfl⟩ := hroute.unique hroute'
          exact ⟨hdepth, congrArg _ (Option.some.inj (hown.symm.trans hown'))⟩
  | field field =>
      cases other with
      | method method => cases hkind
      | field other =>
          obtain ⟨hdepth, rfl⟩ := hroute.unique hroute'
          exact ⟨hdepth, congrArg _ (Option.some.inj (hown.symm.trans hown'))⟩

/-- What is selected is the nearest unless a nearer member is passed over. -/
theorem Selected.nearest_iff (selected : Selected module owner name member route) :
    Nearest module owner name member ↔ ¬ PassedOver module owner name member route := by
  constructor
  · intro ⟨depth, has, hnearest⟩ ⟨other, otherRoute, otherDepth, leads, hnearer, _⟩
    have hless := hnearer depth has
    have hmore := hnearest otherDepth other leads.memberAt
    omega
  · intro hnone
    obtain ⟨start, leads⟩ := selected.leads
    -- The member's own least depth; something that is less deep is passed over.
    classical
    have hsome : ∃ depth, MemberAt module owner name depth member := ⟨start, leads.memberAt⟩
    refine ⟨Nat.find hsome, Nat.find_spec hsome, fun otherDepth other hother => ?_⟩
    by_contra hless
    obtain ⟨otherRoute, less, others, hle⟩ := hother.exists_leadsTo
    have hnearer : ∀ depth, MemberAt module owner name depth member → less < depth := by
      intro deep hdeep
      have hleast := Nat.find_min' hsome hdeep
      omega
    refine hnone ⟨other, otherRoute, less, others, hnearer, ?_⟩
    by_cases hkind : other.isMethod = member.isMethod
    · refine .inr ⟨hkind, Std.lt_of_le_of_ne (selected.first other _ _ hkind others) ?_⟩
      rintro rfl
      obtain ⟨rfl, rfl⟩ := leads.unique others hkind
      exact Nat.lt_irrefl _ (hnearer _ others.memberAt)
    · cases hmember : member.isMethod with
      | true =>
          rw [hmember, Bool.not_eq_true] at hkind
          exact .inl ⟨rfl, hkind⟩
      | false =>
          cases other with
          | method method => exact absurd hother (selected.methods hmember _ method)
          | field field => exact absurd hmember.symm hkind

-- ============================================================ selection

theorem method?_selected (hload : load disk root = .ok module) {method : Method}
    (hsome : method? module owner name = some method) :
    ∃ route, Selected module owner name (.method method) route := by
  obtain ⟨route, depth, type, leads, hoffer, hfirst⟩ :=
    exists_first hload (byKey_ownMethod? name) hsome
  refine ⟨route, ⟨depth, type, leads, hoffer⟩, ?_, nofun⟩
  intro other otherRoute otherDepth hkind ⟨type', hother, hown⟩
  cases other with
  | field field => cases hkind
  | method other =>
      refine hfirst otherRoute otherDepth type' hother ?_
      rw [show offer? module (ownMethod? name) type' = some other from hown]
      rfl

theorem no_method (hload : load disk root = .ok module)
    (hnone : method? module owner name = none) {depth : Nat} {method : Method} :
    ¬ MemberAt module owner name depth (.method method) := by
  intro ⟨type, hreaches, hown⟩
  have hoffer := offer?_eq_none hload (byKey_ownMethod? name) hnone hreaches
  cases hoffer.symm.trans hown

theorem no_field (hload : load disk root = .ok module)
    (hnone : field? module owner name = none) {depth : Nat} {field : Field} :
    ¬ MemberAt module owner name depth (.field field) := by
  intro ⟨type, hreaches, hown⟩
  have hoffer := offer?_eq_none hload (byKey_ownField? module name) hnone hreaches
  cases hoffer.symm.trans hown

theorem field?_selected (hload : load disk root = .ok module)
    (hnone : method? module owner name = none) {field : Field}
    (hsome : field? module owner name = some field) :
    ∃ route, Selected module owner name (.field field) route := by
  obtain ⟨route, depth, type, leads, hoffer, hfirst⟩ :=
    exists_first hload (byKey_ownField? module name) hsome
  refine ⟨route, ⟨depth, type, leads, hoffer⟩, ?_, fun _ _ _ => no_method hload hnone⟩
  intro other otherRoute otherDepth hkind ⟨type', hother, hown⟩
  cases other with
  | method method => cases hkind
  | field other =>
      refine hfirst otherRoute otherDepth type' hother ?_
      rw [show offer? module (ownField? module name) type' = some other from hown]
      rfl

theorem member?_selected (hload : load disk root = .ok module)
    (hsome : member? module owner name = some member) :
    ∃ route, Selected module owner name member route := by
  unfold member? at hsome
  split at hsome
  · next method hmethod =>
      obtain rfl := Option.some.inj hsome
      exact method?_selected hload hmethod
  · next hnone =>
      obtain ⟨field, hfield, rfl⟩ := Option.map_eq_some_iff.mp hsome
      exact field?_selected hload hnone hfield

/-- A selection takes a member when there is one, and takes the first method, or
where there is none the first field. That is the nearest of all members of the
name exactly when no nearer one is passed over. -/
theorem member?_nearest_iff (hload : load disk root = .ok module) (owner : TypeRef)
    (name : String) :
    (member? module owner name = none ↔ ∀ depth member, ¬ MemberAt module owner name depth member)
      ∧ ∀ member, member? module owner name = some member →
        ∃ route, Selected module owner name member route
          ∧ (Nearest module owner name member ↔ ¬ PassedOver module owner name member route) := by
  constructor
  · constructor
    · intro hnone depth member
      unfold member? at hnone
      split at hnone
      · cases hnone
      · next hmethod =>
          cases member with
          | method method => exact no_method hload hmethod
          | field field => exact no_field hload (Option.map_eq_none_iff.mp hnone)
    · intro hnone
      cases hmember : member? module owner name with
      | none => rfl
      | some member =>
          obtain ⟨route, selected⟩ := member?_selected hload hmember
          obtain ⟨depth, leads⟩ := selected.leads
          exact absurd leads.memberAt (hnone depth member)
  · intro member hmember
    obtain ⟨route, selected⟩ := member?_selected hload hmember
    exact ⟨route, selected, selected.nearest_iff⟩

-- ======================================================== passed over

/-- A struct whose first embedded type has the method two fields down, and the
second one field down. -/
def loopText : List Char :=
  ("package loop\n\ntype Outer struct\x7b Left; Right \x7d\n\ntype Left struct\x7b Deep \x7d\n\n"
    ++ "type Deep struct\x7b\x7d\n\nfunc (Deep) Run() \x7b\x7d\n\n"
    ++ "type Right struct\x7b\x7d\n\nfunc (Right) Run() \x7b\x7d\n").toList

/-- The disk with the struct on it. -/
def loopDisk : Disk where
  entries := [(["loop"], .directory), (["loop", "a.go"], .file (.text loopText)),
    (["loop", "go.mod"], .file (.text "module loop\n".toList))]

/-- The module of the struct. -/
def loop : Module :=
  moduleOf loopDisk ["loop"] "loop" ([(["loop", "a.go"], loopText)].filterMap parsedFile?)

/-- A type of the module. -/
def loopType (name : String) : TypeRef := ⟨"loop", name, false⟩

theorem load_loop : load loopDisk "/loop" = .ok loop := by
  rw [loop, loopDisk, show loopText = _ from
    Text.toList_append_literal (Text.toList_append_literal String.toList_ofList)]
  refine load_of_ordered ?_ ?_ ?_ ?_ ?_ <;> decide +kernel

theorem reaches_iff : Reaches module embedded owner depth type ↔ depth = 0 ∧ type = owner
    ∨ ∃ part ∈ taken module embedded owner, ∃ less, Reaches module embedded part less type
      ∧ depth = hop module owner + less := by
  constructor
  · intro reaches
    cases reaches with
    | self => exact .inl ⟨rfl, rfl⟩
    | embed hpart hrest => exact .inr ⟨_, hpart, _, hrest, rfl⟩
  · intro h
    rcases h with ⟨rfl, rfl⟩ | ⟨part, hpart, less, hrest, rfl⟩
    · exact .self
    · exact .embed hpart hrest

/-- The method that a type of the module declares itself, as it is written. -/
def runText? (type : TypeRef) : Option String :=
  (offer? loop (ownMethod? "Run") type).map (·.declaration.text)

theorem loop_facts : (taken loop methodSources (loopType "Outer")
        = [loopType "Left", loopType "Right"]
      ∧ taken loop methodSources (loopType "Left") = [loopType "Deep"]
      ∧ taken loop methodSources (loopType "Deep") = []
      ∧ taken loop methodSources (loopType "Right") = []
      ∧ hop loop (loopType "Outer") = 1 ∧ hop loop (loopType "Left") = 1)
    ∧ runText? (loopType "Outer") = none ∧ runText? (loopType "Left") = none
    ∧ runText? (loopType "Right") = some "func (Right) Run() \x7b\x7d"
    ∧ (method? loop (loopType "Outer") "Run").map (·.declaration.text)
      = some "func (Deep) Run() \x7b\x7d" := by
  simp only [runText?]
  rw [loop, loopDisk, show loopText = _ from
    Text.toList_append_literal (Text.toList_append_literal String.toList_ofList)]
  decide +kernel

/-- The types that the struct reaches. -/
theorem loop_reaches (reaches : Reaches loop methodSources (loopType "Outer") depth type) :
    type = loopType "Outer" ∨ type = loopType "Left" ∨ type = loopType "Right"
      ∨ depth = 2 := by
  obtain ⟨⟨houter, hleft, hdeep, hright, hhop, hhop'⟩, -⟩ := loop_facts
  rcases reaches_iff.mp reaches with ⟨-, hself⟩ | ⟨part, hpart, less, hrest, hdepth⟩
  · exact .inl hself
  · rw [hhop] at hdepth
    simp only [houter, List.mem_cons, List.not_mem_nil, or_false] at hpart
    rcases hpart with rfl | rfl
    · rcases reaches_iff.mp hrest with ⟨-, hself⟩ | ⟨part, hpart, deep, hrest, hless⟩
      · exact .inr (.inl hself)
      · rw [hhop'] at hless
        simp only [hleft, List.mem_singleton] at hpart
        subst hpart
        rcases reaches_iff.mp hrest with ⟨hzero, -⟩ | ⟨part, hpart, -⟩
        · exact .inr (.inr (.inr (by omega)))
        · rw [hdeep] at hpart
          cases hpart
    · rcases reaches_iff.mp hrest with ⟨-, hself⟩ | ⟨part, hpart, -⟩
      · exact .inr (.inr (.inl hself))
      · rw [hright] at hpart
        cases hpart

/-- The method of the struct is not the nearest one. -/
theorem loop_not_nearest (hsome : member? loop (loopType "Outer") "Run" = some member) :
    ¬ Nearest loop (loopType "Outer") "Run" member := by
  obtain ⟨⟨houter, -, -, -, hhop, -⟩, hnone, hnone', hright, hmethod⟩ := loop_facts
  obtain ⟨method, hfound, htext⟩ := Option.map_eq_some_iff.mp hmethod
  obtain ⟨other, hown, -⟩ := Option.map_eq_some_iff.mp hright
  rw [member?, hfound] at hsome
  obtain rfl := Option.some.inj hsome
  have hnear : MemberAt loop (loopType "Outer") "Run" (1 + 0) (.method other) := by
    have hpart : loopType "Right" ∈ taken loop methodSources (loopType "Outer") := by
      rw [houter]
      exact List.mem_cons_of_mem _ List.mem_cons_self
    have hreaches : Reaches loop methodSources (loopType "Outer") _ (loopType "Right") :=
      .embed hpart .self
    rw [hhop] at hreaches
    exact ⟨loopType "Right", hreaches, hown⟩
  intro ⟨depth, ⟨type, hreaches, hsame⟩, hnearest⟩
  have htype : runText? type = some "func (Deep) Run() \x7b\x7d" := by
    have hsame : offer? loop (ownMethod? "Run") type = some method := hsame
    rw [runText?, hsame, Option.map_some, htext]
  have hle := hnearest _ _ hnear
  rcases loop_reaches hreaches with rfl | rfl | rfl | rfl
  · rw [hnone] at htype
    cases htype
  · rw [hnone'] at htype
    cases htype
  · rw [hright] at htype
    exact absurd htype (by decide)
  · omega

/-- On the struct, a selection takes a method that is two fields down and passes
over one that is one field down. -/
theorem member?_not_nearest : load loopDisk "/loop" = .ok loop
    ∧ ∃ member, member? loop (loopType "Outer") "Run" = some member
      ∧ ¬ Nearest loop (loopType "Outer") "Run" member := by
  obtain ⟨-, -, -, -, hmethod⟩ := loop_facts
  obtain ⟨method, hfound, -⟩ := Option.map_eq_some_iff.mp hmethod
  have hsome : member? loop (loopType "Outer") "Run" = some (.method method) := by
    rw [member?, hfound]
  exact ⟨load_loop, _, hsome, loop_not_nearest hsome⟩

theorem member?_nearest_loop : load loopDisk "/loop" = .ok loop
    ∧ ∃ member route, member? loop (loopType "Outer") "Run" = some member
      ∧ Selected loop (loopType "Outer") "Run" member route
      ∧ PassedOver loop (loopType "Outer") "Run" member route := by
  obtain ⟨-, -, -, -, hmethod⟩ := loop_facts
  obtain ⟨method, hfound, -⟩ := Option.map_eq_some_iff.mp hmethod
  have hsome : member? loop (loopType "Outer") "Run" = some (.method method) := by
    rw [member?, hfound]
  obtain ⟨route, selected, hiff⟩ :=
    (member?_nearest_iff load_loop (loopType "Outer") "Run").2 _ hsome
  have hpassed := not_not.mp ((not_congr hiff).mp (loop_not_nearest hsome))
  exact ⟨load_loop, _, route, hsome, selected, hpassed⟩

end Assay.Typing
