/-
Which functions of a file can be asked for. A function is asked for by its name, with
the type it is declared on where the name alone would not do; and a query that is
answered by two functions of the file finds neither.

Among the queries that a function answers there is a strictest one. What else answers
that one answers every query for the function (`Eclipses`): a method has the name of a
plain function, or a method on pointers has the name of one on the type itself. So a
function that another eclipses is found by no query, and every other function is found
by its strictest. Nothing else can come between, since names and types are identifiers,
and the text of a query is then taken apart where it was put together.
-/
import Assay.Proofs.Focal.Naming
import Assay.Proofs.Identity
import Assay.Proofs.Source.Packages
import Assay.Proofs.Syntax.Names

namespace Assay.Focal

open Assay.Syntax Assay.Source Assay.Text

variable {disk : Disk} {module : Module} {package : Package} {file : File}
  {target other : Target} {path root : String}

-- ============================================================== queries

namespace Query

/-- How a query is written. -/
def spelling (query : Query) : String :=
  match query.receiver with
  | none => query.name
  | some receiver =>
    if query.pointerOnly then "(*" ++ receiver ++ ")." ++ query.name
    else receiver ++ "." ++ query.name

/-- What is asked for are identifiers, and pointers to something only. -/
structure IsPlain (query : Query) : Prop where
  name : IsIdentifier query.name.toList
  receiver : ∀ receiver ∈ query.receiver, IsIdentifier receiver.toList
  pointer : query.receiver = none → query.pointerOnly = false

theorem isAnswered_iff {query : Query} {name : String} {receiver : Option Receiver} :
    query.isAnswered name receiver = true ↔ name = query.name
      ∧ ∀ wanted ∈ query.receiver, ∃ found ∈ receiver,
        wanted = found.typeName ∧ (query.pointerOnly = true → found.kind = .pointer) := by
  obtain ⟨wanted, pointerOnly, asked⟩ := query
  cases wanted <;> cases receiver <;> cases pointerOnly <;> simp [isAnswered]

theorem ofString_name {name : String} (hname : IsIdentifier name.toList) :
    ofString name = ⟨none, false, name⟩ := by
  rw [ofString, trim_eq_self hname.isBlank, after?_eq_none (hname.notMem (by decide))]
  show splitDot name.toList = _
  rw [splitDot, splitOnce?_eq_none (hname.notMem (by decide)), String.ofList_toList]

theorem ofString_value {receiver name : String} (hreceiver : IsIdentifier receiver.toList)
    (hname : IsIdentifier name.toList) :
    ofString (receiver ++ "." ++ name) = ⟨some receiver, false, name⟩ := by
  have htext : (receiver ++ "." ++ name).toList
      = receiver.toList ++ (['.'] ++ name.toList) := by simp
  have hsign : ∀ c ∈ ['.'], isBlank c = false := List.forall_mem_singleton.mpr (by decide)
  have hvisible : ∀ c ∈ receiver.toList ++ (['.'] ++ name.toList), isBlank c = false :=
    List.forall_mem_append.mpr ⟨hreceiver.isBlank, List.forall_mem_append.mpr ⟨hsign, hname.isBlank⟩⟩
  have hopening : '(' ∉ receiver.toList ++ (['.'] ++ name.toList) := by
    simp [hreceiver.notMem (by decide : isIdentifierPart '(' = false),
      hname.notMem (by decide : isIdentifierPart '(' = false)]
  rw [ofString, htext, trim_eq_self hvisible, after?_eq_none hopening]
  show splitDot _ = _
  rw [splitDot, splitOnce?_of_notMem (hreceiver.notMem (by decide))]
  simp

theorem ofString_pointer {receiver name : String} (hreceiver : IsIdentifier receiver.toList)
    (hname : IsIdentifier name.toList) :
    ofString ("(*" ++ receiver ++ ")." ++ name) = ⟨some receiver, true, name⟩ := by
  have htext : ("(*" ++ receiver ++ ")." ++ name).toList
      = ['(', '*'] ++ (receiver.toList ++ ([')', '.'] ++ name.toList)) := by simp
  have hopening : ∀ c ∈ ['(', '*'], isBlank c = false := by simp; decide
  have hclosing : ∀ c ∈ [')', '.'], isBlank c = false := by simp; decide
  have hvisible : ∀ c ∈ ['(', '*'] ++ (receiver.toList ++ ([')', '.'] ++ name.toList)),
      isBlank c = false :=
    List.forall_mem_append.mpr ⟨hopening, List.forall_mem_append.mpr
      ⟨hreceiver.isBlank, List.forall_mem_append.mpr ⟨hclosing, hname.isBlank⟩⟩⟩
  rw [ofString, htext, trim_eq_self hvisible, after?_append, Option.bind_some,
    splitOnce?_of_notMem (hreceiver.notMem (by decide))]
  simp

/-- A query is read back from its spelling. -/
theorem ofString_spelling {query : Query} (plain : query.IsPlain) :
    ofString query.spelling = query := by
  obtain ⟨receiver, pointerOnly, name⟩ := query
  cases receiver with
  | none =>
      obtain rfl : pointerOnly = false := plain.pointer rfl
      exact ofString_name plain.name
  | some receiver =>
      have hreceiver := plain.receiver receiver rfl
      cases pointerOnly with
      | false => exact ofString_value hreceiver plain.name
      | true => exact ofString_pointer hreceiver plain.name

end Query

-- ============================================================== targets

namespace Target

/-- The queries for a function: its name, and with its type, the name on the type and
on pointers to it. -/
def queries (target : Target) : List String :=
  target.name :: match target.receiver with
    | none => []
    | some receiver =>
      [receiver.typeName ++ "." ++ target.name, "(*" ++ receiver.typeName ++ ")." ++ target.name]

/-- The strictest query for a function. -/
def strictest (target : Target) : Query :=
  match target.receiver with
  | none => ⟨none, false, target.name⟩
  | some receiver => ⟨some receiver.typeName, receiver.kind == .pointer, target.name⟩

/-- A function answers every query for another: it has the same name, and it is a
method where the other is none, or a method on pointers where the other is one on the
same type itself. -/
def Eclipses (other target : Target) : Prop :=
  other.name = target.name ∧ match target.receiver with
    | none => other.receiver ≠ none
    | some receiver => receiver.kind ≠ .pointer ∧ other.receiver = some ⟨receiver.typeName, .pointer⟩

instance (other target : Target) : Decidable (other.Eclipses target) :=
  have : Decidable (match target.receiver with
      | none => other.receiver ≠ none
      | some receiver =>
        receiver.kind ≠ .pointer ∧ other.receiver = some ⟨receiver.typeName, .pointer⟩) :=
    match target.receiver with
    | none => inferInstanceAs (Decidable (other.receiver ≠ none))
    | some receiver => inferInstanceAs (Decidable
        (receiver.kind ≠ .pointer ∧ other.receiver = some ⟨receiver.typeName, .pointer⟩))
  inferInstanceAs (Decidable (_ ∧ _))

/-- One of the functions eclipses this one. -/
def IsHidden (target : Target) (functions : List Target) : Prop :=
  ∃ other ∈ functions, other.Eclipses target

instance (target : Target) (functions : List Target) : Decidable (target.IsHidden functions) :=
  inferInstanceAs (Decidable (∃ other ∈ functions, other.Eclipses target))

theorem strictest_mem_queries (target : Target) : target.strictest.spelling ∈ target.queries := by
  unfold queries strictest Query.spelling
  cases target.receiver with
  | none => exact List.mem_cons_self
  | some receiver =>
      dsimp only
      split
      · exact List.mem_cons_of_mem _ (List.mem_cons_of_mem _ List.mem_cons_self)
      · exact List.mem_cons_of_mem _ List.mem_cons_self

theorem isPlain_strictest (hname : IsIdentifier target.name.toList)
    (hreceiver : ∀ receiver ∈ target.receiver, IsIdentifier receiver.typeName.toList) :
    target.strictest.IsPlain := by
  unfold strictest
  cases hkind : target.receiver with
  | none => exact ⟨hname, nofun, fun _ => rfl⟩
  | some receiver =>
      exact ⟨hname, fun _ hsome => Option.some.inj hsome ▸ hreceiver receiver hkind, nofun⟩

/-- A function answers its strictest query. -/
theorem isAnswered_strictest (target : Target) :
    target.strictest.isAnswered target.name target.receiver = true := by
  refine Query.isAnswered_iff.mpr ?_
  unfold strictest
  cases target.receiver with
  | none => exact ⟨rfl, nofun⟩
  | some receiver =>
      refine ⟨rfl, fun wanted hwanted => ⟨receiver, rfl, (Option.some.inj hwanted).symm, ?_⟩⟩
      exact beq_iff_eq.mp

/-- What answers the strictest query for a function has its qualified name, or eclipses
it. -/
theorem id_eq_or_eclipses (hpackage : other.package = target.package)
    (hanswered : target.strictest.isAnswered other.name other.receiver = true) :
    other.id = target.id ∨ other.Eclipses target := by
  obtain ⟨hname, hfound⟩ := Query.isAnswered_iff.mp hanswered
  unfold strictest at hname hfound
  unfold id Eclipses
  cases hreceiver : target.receiver with
  | none =>
      rw [hreceiver] at hname
      cases hother : other.receiver with
      | none => exact .inl (by rw [hpackage, hname])
      | some receiver => exact .inr ⟨hname, nofun⟩
  | some receiver =>
      rw [hreceiver] at hname hfound
      obtain ⟨found, hother, htype, hpointer⟩ := hfound _ rfl
      rw [hother]
      by_cases hkinds : receiver.kind = .pointer ↔ found.kind = .pointer
      · have alike : found.Alike receiver := ⟨htype.symm, hkinds.symm⟩
        refine .inl ?_
        rw [hpackage, hname, QualifiedName.ofFunction, QualifiedName.ofFunction, alike.qualifier_eq]
      · -- Kinds that differ are a value that was asked for, and a pointer that was found.
        have hvalue : receiver.kind ≠ .pointer := fun hkind =>
          hkinds (iff_of_true hkind (hpointer (beq_iff_eq.mpr hkind)))
        have hpointer : found.kind = .pointer := by
          by_contra hkind
          exact hkinds (iff_of_false hvalue hkind)
        refine .inr ⟨hname, hvalue, ?_⟩
        rw [htype, ← hpointer]

theorem Eclipses.ne (eclipses : other.Eclipses target) : other ≠ target := by
  rintro rfl
  obtain ⟨-, hreceiver⟩ := eclipses
  split at hreceiver
  · next hnone => exact hreceiver hnone
  · next receiver hsome =>
      obtain ⟨hkind, hpointer⟩ := hreceiver
      rw [Option.some.inj (hsome.symm.trans hpointer)] at hkind
      exact hkind rfl

/-- Whatever query a function answers, what eclipses it does too. -/
theorem Eclipses.isAnswered (eclipses : other.Eclipses target) {query : Query}
    (hanswered : query.isAnswered target.name target.receiver = true) :
    query.isAnswered other.name other.receiver = true := by
  obtain ⟨hname, hreceiver⟩ := eclipses
  obtain ⟨hasked, hfound⟩ := Query.isAnswered_iff.mp hanswered
  refine Query.isAnswered_iff.mpr ⟨hname.trans hasked, fun wanted hwanted => ?_⟩
  obtain ⟨found, hsome, htype, -⟩ := hfound wanted hwanted
  rw [hsome] at hreceiver
  exact ⟨_, hreceiver.2, htype, fun _ => rfl⟩

end Target

-- ================================================================ files

/-- The functions and methods of a file. -/
def functionsOf (package : Package) (file : File) : List Target :=
  file.topLevel.filterMap (target? package file)

/-- Of these functions, only this one answers the query. -/
def Query.Picks (query : Query) (functions : List Target) (target : Target) : Prop :=
  ∃ before after, functions = before ++ target :: after
    ∧ query.isAnswered target.name target.receiver = true
    ∧ ∀ other ∈ before ++ after, query.isAnswered other.name other.receiver = false

theorem picks_iff {query : Query} :
    query.Picks (functionsOf package file) target ↔ answers package file query = [target] := by
  show _ ↔ List.filter _ (functionsOf package file) = [target]
  rw [List.filter_eq_cons_iff]
  simp only [List.filter_eq_nil_iff, Bool.not_eq_true]
  constructor
  · rintro ⟨before, after, hsplit, hanswered, hnone⟩
    obtain ⟨hbefore, hafter⟩ := List.forall_mem_append.mp hnone
    exact ⟨before, after, hsplit, hbefore, hanswered, hafter⟩
  · rintro ⟨before, after, hsplit, hbefore, hanswered, hafter⟩
    exact ⟨before, after, hsplit, hanswered, List.forall_mem_append.mpr ⟨hbefore, hafter⟩⟩

/-- A query finds what it picks. -/
theorem resolve_eq_ok_iff (hat : module.fileAt? path = some (package, file)) {query : String} :
    resolve module path query = .ok target
      ↔ (Query.ofString query).Picks (functionsOf package file) target := by
  rw [picks_iff]
  constructor
  · intro hresolve
    obtain ⟨_, _, hat', honly⟩ := answers_of_resolve hresolve
    obtain ⟨rfl, rfl⟩ := Prod.mk.inj (Option.some.inj (hat.symm.trans hat'))
    exact honly
  · intro honly
    unfold resolve
    simp only [hat, honly]

theorem mem_functionsOf (hmem : target ∈ functionsOf package file) :
    ∃ node ∈ file.topLevel, node.IsFunction ∧ target.package = package
      ∧ target.declaration = ⟨file, node⟩ ∧ target.declaration.name? = some target.name := by
  obtain ⟨node, htop, hmade⟩ := List.mem_filterMap.mp hmem
  obtain ⟨hkind, hpackage, hplace, hname⟩ := eq_of_target? hmade
  rw [hplace] at hkind
  exact ⟨node, htop, hkind, hpackage, hplace, hname⟩

/-- What is eclipsed is not picked. -/
theorem Query.Picks.not_isHidden {query : Query} {functions : List Target}
    (picks : query.Picks functions target) : ¬ target.IsHidden functions := by
  rintro ⟨other, hother, eclipses⟩
  obtain ⟨before, after, rfl, hanswered, hnone⟩ := picks
  have helse : other ∈ before ++ after := by
    rcases List.mem_append.mp hother with hbefore | hrest
    · exact List.mem_append_left _ hbefore
    · exact List.mem_append_right _ ((List.mem_cons.mp hrest).resolve_left eclipses.ne)
  exact Bool.false_ne_true ((hnone other helse).symm.trans (eclipses.isAnswered hanswered))

/-- Nothing finds a function that is eclipsed. -/
theorem resolve_ne_of_isHidden (hmem : target ∈ functionsOf package file)
    (hidden : target.IsHidden (functionsOf package file)) (path query : String) :
    resolve module path query ≠ .ok target := by
  intro hresolve
  obtain ⟨package', file', hat, -⟩ := answers_of_resolve hresolve
  have picks := (resolve_eq_ok_iff hat).mp hresolve
  obtain ⟨before, after, hsplit, -, -⟩ := picks
  -- The function says itself which file it is in.
  have hmem' : target ∈ functionsOf package' file' := by
    rw [hsplit]
    exact List.mem_append_right _ List.mem_cons_self
  obtain ⟨_, -, -, rfl, hplace, -⟩ := mem_functionsOf hmem
  obtain ⟨_, -, -, rfl, hplace', -⟩ := mem_functionsOf hmem'
  obtain rfl : file = file' := congrArg Declaration.file (hplace.symm.trans hplace')
  exact ((resolve_eq_ok_iff hat).mp hresolve).not_isHidden hidden

/-- What no other eclipses is picked by its strictest query. -/
theorem picks_strictest (hdistinct : ((functionsOf package file).map (·.id)).Nodup)
    (hmem : target ∈ functionsOf package file)
    (hvisible : ¬ target.IsHidden (functionsOf package file)) :
    target.strictest.Picks (functionsOf package file) target := by
  obtain ⟨before, after, hsplit⟩ := List.append_of_mem hmem
  refine ⟨before, after, hsplit, target.isAnswered_strictest, fun other hother => ?_⟩
  have hother' : other ∈ functionsOf package file := by
    rw [hsplit]
    exact (List.mem_append.mp hother).elim (List.mem_append_left _)
      fun hafter => List.mem_append_right _ (List.mem_cons_of_mem _ hafter)
  have hpackage : other.package = target.package := by
    obtain ⟨_, -, -, hpackage, -⟩ := mem_functionsOf hother'
    obtain ⟨_, -, -, hpackage', -⟩ := mem_functionsOf hmem
    exact hpackage.trans hpackage'.symm
  refine Bool.eq_false_iff.mpr fun hanswered => ?_
  rcases Target.id_eq_or_eclipses hpackage hanswered with hid | eclipses
  · rw [hsplit, List.map_append, List.map_cons, List.nodup_middle, List.nodup_cons,
      ← List.map_append] at hdistinct
    exact hdistinct.1 (List.mem_map.mpr ⟨other, hother, hid⟩)
  · exact hvisible ⟨other, hother', eclipses⟩

-- ============================================================== modules

/-- Every function declared at the top level of a loaded file is one of its functions. -/
theorem exists_mem_functionsOf (hparse : parse? file.source = some file.tree)
    {node : Tree} (hmem : node ∈ file.topLevel) (hfunction : node.IsFunction) :
    ∃ target ∈ functionsOf package file, target.declaration = ⟨file, node⟩ := by
  obtain ⟨_, -, -, part, hpart, -⟩ :=
    isNamedBy_of_parse? hparse (List.mem_of_mem_filter hmem) hfunction
  have hname : (⟨file, node⟩ : Declaration).name? = some (file.text part) :=
    Option.map_eq_some_iff.mpr ⟨part, hpart, rfl⟩
  obtain ⟨target, hmade⟩ : ∃ target, target? package file node = some target := by
    rw [target?]
    rcases hfunction with hkind | hkind
    all_goals
      rw [hkind]
      exact ⟨_, congrArg (Option.map _) hname⟩
  exact ⟨target, List.mem_filterMap.mpr ⟨node, hmem, hmade⟩, (eq_of_target? hmade).2.2.1⟩

/-- A query that finds a function picks it from those of the file. When these have names
of their own, each of them, if its type is named, is found by one of its queries, or
another of the file eclipses it and nothing finds it. -/
theorem resolve_reaches (hdisk : disk.WellFormed) (hload : load disk root = .ok module)
    (hpackage : package ∈ module.allPackages) (hfile : file ∈ package.files)
    (hdistinct : ((functionsOf package file).map (·.id)).Nodup) :
    module.fileAt? file.path = some (package, file)
      ∧ (∀ node ∈ file.topLevel, node.IsFunction →
          ∃ target ∈ functionsOf package file, target.declaration = ⟨file, node⟩)
      ∧ ∀ path, module.fileAt? path = some (package, file) →
        (∀ target ∈ functionsOf package file,
          (∀ receiver ∈ target.receiver, IsIdentifier receiver.typeName.toList) →
            ((∃ query ∈ target.queries, resolve module path query = .ok target)
              ↔ ¬ target.IsHidden (functionsOf package file))
            ∧ (target.IsHidden (functionsOf package file) →
              ∀ path query, resolve module path query ≠ .ok target))
        ∧ ∀ query target, resolve module path query = .ok target →
          (Query.ofString query).Picks (functionsOf package file) target := by
  have hparse := parse?_of_load hdisk hload hpackage hfile
  refine ⟨((lookups_of_load hdisk hload hpackage).2 file hfile).1,
    fun node => exists_mem_functionsOf hparse, fun path hat => ⟨fun target hmem hreceiver => ?_,
      fun query target => (resolve_eq_ok_iff hat).mp⟩⟩
  refine ⟨⟨fun ⟨query, _, hresolve⟩ hidden => resolve_ne_of_isHidden hmem hidden _ _ hresolve,
    fun hvisible => ⟨_, target.strictest_mem_queries, ?_⟩⟩, resolve_ne_of_isHidden hmem⟩
  obtain ⟨node, htop, hfunction, -, hplace, hname⟩ := mem_functionsOf hmem
  have hidentifier : IsIdentifier target.name.toList :=
    isIdentifier_of_name? (by rw [hplace]; exact hparse) (by rw [hplace]; exact htop)
      (by rw [hplace]; exact hfunction) hname
  rw [resolve_eq_ok_iff hat,
    Query.ofString_spelling (Target.isPlain_strictest hidentifier hreceiver)]
  exact picks_strictest hdistinct hmem hvisible

/-- Three functions of one name, and one of another. -/
def tallyText : List Char :=
  ("package tally\n\ntype Acc int\n\nfunc Add() \x7b\x7d\n\nfunc (a *Acc) Add() \x7b\x7d\n\n"
    ++ "func (a Acc) Add() \x7b\x7d\n\nfunc Sub() \x7b\x7d\n").toList

/-- A module with this file. -/
def tallyDisk : Disk where
  entries := [(["tally"], .directory),
    (["tally", "go.mod"], .file (.text "module tally\n".toList)),
    (["tally", "tally.go"], .file (.text tallyText))]

/-- The module, loaded. -/
def tally : Module :=
  moduleOf tallyDisk ["tally"] "tally" ([(["tally", "tally.go"], tallyText)].filterMap parsedFile?)

theorem load_tally : load tallyDisk "/tally" = .ok tally := by
  rw [tally, tallyDisk,
    show tallyText = _ from Text.toList_append_literal String.toList_ofList]
  refine load_of_ordered ?_ ?_ ?_ ?_ ?_ <;> decide +kernel

/-- Its only file, and the package of it. -/
def tallyFile : Package × File := (tally.fileAt? "tally.go").get (by decide +kernel)

theorem fileAt?_tally : tally.fileAt? "tally.go" = some (tallyFile.1, tallyFile.2) := by
  rw [Prod.mk.eta]
  exact (Option.some_get _).symm

/-- What is evaluated: the functions have names of their own, their types are named, and
two of them are eclipsed. -/
theorem functionsOf_tally : ((functionsOf tallyFile.1 tallyFile.2).map (·.id)).Nodup
    ∧ (∀ target ∈ functionsOf tallyFile.1 tallyFile.2, ∀ receiver ∈ target.receiver,
        IsIdentifier receiver.typeName.toList)
    ∧ (∀ id ∈ ["tally.(*Acc).Add", "tally.Sub"], ∃ target ∈ functionsOf tallyFile.1 tallyFile.2,
        target.id.text = id ∧ ¬ target.IsHidden (functionsOf tallyFile.1 tallyFile.2))
    ∧ ∀ id ∈ ["tally.Add", "tally.Acc.Add"], ∃ target ∈ functionsOf tallyFile.1 tallyFile.2,
        target.id.text = id ∧ target.IsHidden (functionsOf tallyFile.1 tallyFile.2) := by
  have hfits : ∀ place ∈ tally.fileAt? "tally.go",
      ((functionsOf place.1 place.2).map (·.id)).Nodup
        ∧ (∀ target ∈ functionsOf place.1 place.2, ∀ receiver ∈ target.receiver,
          IsIdentifier receiver.typeName.toList)
        ∧ (∀ id ∈ ["tally.(*Acc).Add", "tally.Sub"], ∃ target ∈ functionsOf place.1 place.2,
          target.id.text = id ∧ ¬ target.IsHidden (functionsOf place.1 place.2))
        ∧ ∀ id ∈ ["tally.Add", "tally.Acc.Add"], ∃ target ∈ functionsOf place.1 place.2,
          target.id.text = id ∧ target.IsHidden (functionsOf place.1 place.2) := by
    rw [tally, tallyDisk,
      show tallyText = _ from Text.toList_append_literal String.toList_ofList]
    decide +kernel
  exact hfits tallyFile (Option.get_mem _)

/-- The method on pointers and the function with a name of its own are found by queries. -/
theorem resolve_reaches_tally : tallyDisk.WellFormed ∧ load tallyDisk "/tally" = .ok tally
    ∧ ((functionsOf tallyFile.1 tallyFile.2).map (·.id)).Nodup
    ∧ ∀ id ∈ ["tally.(*Acc).Add", "tally.Sub"], ∃ target ∈ functionsOf tallyFile.1 tallyFile.2,
        target.id.text = id
          ∧ ∃ query ∈ target.queries, resolve tally "tally.go" query = .ok target := by
  have hdisk : tallyDisk.WellFormed := by decide +kernel
  obtain ⟨hpackage, hfile⟩ := mem_of_fileAt? fileAt?_tally
  obtain ⟨hdistinct, hnamed, hclear, -⟩ := functionsOf_tally
  refine ⟨hdisk, load_tally, hdistinct, fun id hid => ?_⟩
  obtain ⟨target, hmem, hid, hvisible⟩ := hclear id hid
  obtain ⟨-, -, hreaches⟩ := resolve_reaches hdisk load_tally hpackage hfile hdistinct
  obtain ⟨hfound, -⟩ := hreaches "tally.go" fileAt?_tally
  exact ⟨target, hmem, hid, (hfound target hmem (hnamed target hmem)).1.mpr hvisible⟩

/-- The plain function is eclipsed by the methods, and the method on the type itself by
that on pointers: no query finds either. -/
theorem resolve_misses_tally : tallyDisk.WellFormed ∧ load tallyDisk "/tally" = .ok tally
    ∧ tally.fileAt? "tally.go" = some (tallyFile.1, tallyFile.2)
    ∧ ((functionsOf tallyFile.1 tallyFile.2).map (·.id)).Nodup
    ∧ ∀ id ∈ ["tally.Add", "tally.Acc.Add"], ∃ target ∈ functionsOf tallyFile.1 tallyFile.2,
        target.id.text = id ∧ ∀ path query, resolve tally path query ≠ .ok target := by
  obtain ⟨hdistinct, -, -, hhidden⟩ := functionsOf_tally
  refine ⟨by decide +kernel, load_tally, fileAt?_tally, hdistinct, fun id hid => ?_⟩
  obtain ⟨target, hmem, hid, hidden⟩ := hhidden id hid
  exact ⟨target, hmem, hid, resolve_ne_of_isHidden hmem hidden⟩

end Assay.Focal
