/-
The definitions a function uses, on their way into its prompt. A closure has them in
the order of their names, whatever the order they came in (`collected_perm`). Under
the short name of a package `byPackage` has those of them whose package has the name,
in the closure's order (`mem_byPackage_iff`); packages with one short name share a
group. So the groups part the definitions: none is lost, and none comes twice.

A group with bodies becomes a file: a package clause, and below it the bodies, each
after an empty line. Blanks at the end of a body are not shown, nor are those at the
end of a file, which matters only where the last body is nothing but blanks.
-/
import Assay.Proofs.Catalog
import Assay.Proofs.Prompt.Decode
import Mathlib.Data.List.Nodup

namespace Assay.UsageClosure

variable {definitions others : List Definition} {uses : UsageClosure}
  {group : String × List Definition}

-- ============================================================== closures

/-- The closure that definitions make, one coming in after another. -/
def collected (definitions : List Definition) : UsageClosure := definitions.foldl add Catalog.empty

theorem collected_eq_ofList (definitions : List Definition) : collected definitions
    = Catalog.ofList (definitions.map fun definition => (definition.id.text, definition)) := by
  rw [collected, Catalog.ofList, List.foldl_map]
  rfl

/-- The texts of different names are different. -/
theorem nodup_keys (hids : (definitions.map (·.id)).Nodup) :
    ((definitions.map fun definition => (definition.id.text, definition)).map (·.1)).Nodup := by
  have hinjective : Function.Injective QualifiedName.text := fun a b h => by
    cases a
    cases b
    exact congrArg QualifiedName.mk h
  have hkeys := hids.map hinjective
  rw [List.map_map] at hkeys ⊢
  exact hkeys

/-- Definitions with different names make the same closure in any order. -/
theorem collected_perm (hperm : others.Perm definitions) (hids : (definitions.map (·.id)).Nodup) :
    collected others = collected definitions := by
  rw [collected_eq_ofList, collected_eq_ofList]
  exact (Catalog.ofList_perm (hperm.symm.map _) (nodup_keys hids)).symm

/-- The definitions of a closure are in the order of their names. -/
theorem pairwise_values_collected (definitions : List Definition) :
    (collected definitions).values.Pairwise fun a b => a.id.text < b.id.text := by
  rw [collected_eq_ofList]
  refine List.pairwise_map.mpr ?_
  refine (Catalog.pairwise_entries_ofList _).imp_of_mem fun ha hb hlt => ?_
  obtain ⟨a, -, rfl⟩ := List.mem_map.mp (Catalog.mem_entries_ofList ha)
  obtain ⟨b, -, rfl⟩ := List.mem_map.mp (Catalog.mem_entries_ofList hb)
  exact hlt

/-- What is in order comes once. -/
theorem nodup_of_pairwise (hordered : definitions.Pairwise fun a b => a.id.text < b.id.text) :
    definitions.Nodup := by
  refine hordered.imp fun {a b} hlt hsame => ?_
  rw [hsame] at hlt
  exact lt_irrefl _ hlt

/-- A closure has the definitions that came in. -/
theorem values_collected_perm (hids : (definitions.map (·.id)).Nodup) :
    (collected definitions).values.Perm definitions := by
  refine (List.perm_ext_iff_of_nodup (nodup_of_pairwise (pairwise_values_collected definitions))
    hids.of_map).mpr fun definition => ?_
  rw [collected_eq_ofList, Catalog.values, List.mem_map]
  constructor
  · rintro ⟨entry, hentry, rfl⟩
    obtain ⟨definition, hmem, rfl⟩ := List.mem_map.mp (Catalog.mem_entries_ofList hentry)
    exact hmem
  · exact fun hmem =>
      ⟨_, Catalog.mem_ofList (nodup_keys hids) (List.mem_map_of_mem hmem), rfl⟩

-- ================================================================ groups

/-- The definitions of the packages with a short name. -/
def named (name : String) (definitions : List Definition) : List Definition :=
  definitions.filter (·.package.name == name)

theorem mem_named {name : String} {definition : Definition} :
    definition ∈ named name definitions
      ↔ definition ∈ definitions ∧ definition.package.name = name := by
  rw [named, List.mem_filter, beq_iff_eq]

/-- Puts a definition at the end of the group of its package. -/
def putInGroup (groups : Catalog (List Definition)) (definition : Definition) :
    Catalog (List Definition) :=
  groups.insert definition.package.name
    ((groups.find? definition.package.name).getD [] ++ [definition])

theorem byPackage_eq_foldl (uses : UsageClosure) :
    uses.byPackage = uses.values.foldl putInGroup Catalog.empty := rfl

/-- Under a name are the definitions of the packages with the name, if there are any. -/
theorem find?_foldl_putInGroup (definitions : List Definition) (name : String) :
    (definitions.foldl putInGroup Catalog.empty).find? name
      = if named name definitions = [] then none else some (named name definitions) := by
  induction definitions using List.reverseRecOn with
  | nil => rfl
  | append_singleton earlier definition ih =>
      rw [List.foldl_concat, putInGroup, Catalog.find?_insert]
      by_cases hname : definition.package.name = name
      · have hgrown : named name (earlier ++ [definition]) = named name earlier ++ [definition] := by
          rw [named, List.filter_append, List.filter_singleton, beq_iff_eq.mpr hname]
          rfl
        have hheld : ((earlier.foldl putInGroup Catalog.empty).find? name).getD []
            = named name earlier := by
          rw [ih]
          split
          · next hnone => exact hnone.symm
          · rfl
        rw [if_pos hname, hname, hheld, hgrown, if_neg (by simp)]
      · have hsame : named name (earlier ++ [definition]) = named name earlier := by
          rw [named, List.filter_append, List.filter_singleton, beq_eq_false_iff_ne.mpr hname]
          exact List.append_nil _
        rw [if_neg hname, ih, hsame]

/-- The names of the groups are in order. -/
theorem pairwise_byPackage (uses : UsageClosure) :
    uses.byPackage.entries.Pairwise fun a b => a.1 < b.1 := by
  rw [byPackage_eq_foldl]
  exact Catalog.pairwise_foldl_insert (fun _ definition => definition.package.name)
    (fun groups definition => (groups.find? definition.package.name).getD [] ++ [definition])
    uses.values List.Pairwise.nil

/-- A group is what a closure has under the short name of a package. -/
theorem mem_byPackage_iff :
    group ∈ uses.byPackage.entries ↔ group.2 = named group.1 uses.values ∧ group.2 ≠ [] := by
  have hfound : uses.byPackage.find? group.1
      = if named group.1 uses.values = [] then none else some (named group.1 uses.values) := by
    rw [byPackage_eq_foldl, find?_foldl_putInGroup]
  constructor
  · intro hmem
    have hkeys : uses.byPackage.keys.Nodup :=
      List.pairwise_map.mpr ((pairwise_byPackage uses).imp fun hlt => hlt.ne)
    rw [Catalog.find?_of_mem hkeys hmem] at hfound
    split at hfound
    · cases hfound
    · next hsome =>
        have hgroup := Option.some.inj hfound
        exact ⟨hgroup, hgroup ▸ hsome⟩
  · rintro ⟨hgroup, hsome⟩
    rw [← hgroup, if_neg hsome] at hfound
    exact Catalog.mem_entries_of_find? hfound

/-- The groups have what the closure has. -/
theorem flatMap_byPackage_perm (hordered : uses.values.Pairwise fun a b => a.id.text < b.id.text) :
    (uses.byPackage.entries.flatMap (·.2)).Perm uses.values := by
  have hnodup := nodup_of_pairwise hordered
  refine (List.perm_ext_iff_of_nodup (List.nodup_flatMap.mpr ⟨fun group hgroup => ?_, ?_⟩)
    hnodup).mpr fun definition => ?_
  · rw [(mem_byPackage_iff.mp hgroup).1]
    exact hnodup.filter _
  · refine (pairwise_byPackage uses).imp_of_mem fun {a b} ha hb hlt definition hina hinb => ?_
    dsimp only at hina hinb
    rw [(mem_byPackage_iff.mp ha).1] at hina
    rw [(mem_byPackage_iff.mp hb).1] at hinb
    exact hlt.ne ((mem_named.mp hina).2.symm.trans (mem_named.mp hinb).2)
  · rw [List.mem_flatMap]
    constructor
    · rintro ⟨group, hgroup, hmem⟩
      rw [(mem_byPackage_iff.mp hgroup).1] at hmem
      exact (mem_named.mp hmem).1
    · intro hmem
      have hin : definition ∈ named definition.package.name uses.values :=
        mem_named.mpr ⟨hmem, rfl⟩
      exact ⟨(_, _), mem_byPackage_iff.mpr ⟨rfl, List.ne_nil_of_mem hin⟩, hin⟩

/-- Groups of definitions, by the short names of their packages: every definition is in
one of them, and comes there once. -/
structure IsGrouping (groups : List (String × List Definition)) (definitions : List Definition) :
    Prop where
  names_ordered : groups.Pairwise fun a b => a.1 < b.1
  ids_ordered : ∀ group ∈ groups, group.2.Pairwise fun a b => a.id.text < b.id.text
  named : ∀ group ∈ groups, ∀ definition ∈ group.2, definition.package.name = group.1
  place : ∀ definition ∈ definitions, ∃! group, group ∈ groups ∧ definition ∈ group.2
  perm : (groups.flatMap (·.2)).Perm definitions
  nonempty : ∀ group ∈ groups, group.2 ≠ []

theorem isGrouping_byPackage (hids : (definitions.map (·.id)).Nodup) :
    IsGrouping (collected definitions).byPackage.entries definitions := by
  have hordered := pairwise_values_collected definitions
  have hnames := pairwise_byPackage (collected definitions)
  have hperm := (flatMap_byPackage_perm hordered).trans (values_collected_perm hids)
  have hnamed : ∀ group ∈ (collected definitions).byPackage.entries, ∀ definition ∈ group.2,
      definition.package.name = group.1 := fun group hgroup definition hmem => by
    rw [(mem_byPackage_iff.mp hgroup).1] at hmem
    exact (mem_named.mp hmem).2
  refine ⟨hnames, fun group hgroup => ?_, hnamed, fun definition hmem => ?_, hperm,
    fun group hgroup => (mem_byPackage_iff.mp hgroup).2⟩
  · rw [(mem_byPackage_iff.mp hgroup).1]
    exact hordered.filter _
  · obtain ⟨group, hgroup, hin⟩ := List.mem_flatMap.mp (hperm.mem_iff.mpr hmem)
    refine ⟨group, ⟨hgroup, hin⟩, fun other ⟨hother, hinother⟩ => ?_⟩
    have hkeys : ((collected definitions).byPackage.entries.map (·.1)).Nodup :=
      List.pairwise_map.mpr (hnames.imp fun hlt => hlt.ne)
    exact List.inj_on_of_nodup_map hkeys hother hgroup
      ((hnamed other hother definition hinother).symm.trans (hnamed group hgroup definition hin))

end Assay.UsageClosure

namespace Assay.Prompt

open Text UsageClosure

variable {definitions : List Definition} {groups : List (String × List Definition)}
  {file : String × List (List Char)}

-- ================================================================= files

/-- The bodies that definitions have, without the blanks at their ends. -/
def bodiesOf (definitions : List Definition) : List (List Char) :=
  (definitions.filterMap (·.body)).map fun body => trimEnd body.toList

/-- The files that groups make: a package name and bodies, where there are any. -/
def filesOf (groups : List (String × List Definition)) : List (String × List (List Char)) :=
  (groups.map fun group => (group.1, bodiesOf group.2)).filter fun file => !file.2.isEmpty

/-- A file: a package clause and bodies, with an empty line before each. -/
def listing (file : String × List (List Char)) : List Char :=
  join ['\n', '\n'] (("package ".toList ++ file.1.toList) :: file.2)

/-- The section that shows files. -/
def fileSection (files : List (String × List (List Char))) : List Char :=
  if files = [] then []
  else groupHeading ++ fencedAll (files.map fun file => trimEnd (listing file))

/-- Line by line, as it is built, a file has one line break more than its listing. -/
theorem listing_append (name : String) (bodies : List (List Char)) :
    listing (name, bodies) ++ ['\n'] = "package ".toList ++ name.toList ++ ['\n']
      ++ bodies.flatMap fun body => ['\n'] ++ body ++ ['\n'] := by
  unfold listing
  generalize "package ".toList ++ name.toList = clause
  induction bodies generalizing clause with
  | nil => simp [join]
  | cons body bodies ih =>
      rw [join, List.append_assoc, ih body, List.flatMap_cons]
      · simp
      · exact List.cons_ne_nil _ _

theorem packageBlock?_eq (name : String) (definitions : List Definition) :
    packageBlock? name definitions = if bodiesOf definitions = [] then none
      else some (trimEnd (listing (name, bodiesOf definitions))) := by
  have hbreak : trimEnd (listing (name, bodiesOf definitions) ++ ['\n'])
      = trimEnd (listing (name, bodiesOf definitions)) := trimEnd_append_blank (by decide) _
  have hfile : trimEnd (listing (name, bodiesOf definitions))
      = trimEnd ("package ".toList ++ name.toList ++ ['\n'] ++ (definitions.filterMap
        (·.body)).flatMap fun body => ['\n'] ++ trimEnd body.toList ++ ['\n']) := by
    rw [← hbreak, listing_append, bodiesOf, List.flatMap_map]
  have hnone : bodiesOf definitions = [] ↔ definitions.filterMap (·.body) = [] :=
    List.map_eq_nil_iff
  unfold packageBlock?
  split
  · next hbodies => rw [if_pos (hnone.mpr hbodies)]
  · next hbodies => rw [if_neg (mt hnone.mp hbodies), hfile]

theorem packageBlocks_eq (groups : Catalog (List Definition)) :
    packageBlocks groups = (filesOf groups.entries).map fun file => trimEnd (listing file) := by
  unfold packageBlocks filesOf
  induction groups.entries with
  | nil => rfl
  | cons group groups ih =>
      obtain ⟨name, definitions⟩ := group
      rw [List.filterMap_cons, ih, List.map_cons, List.filter_cons]
      dsimp only
      rw [packageBlock?_eq]
      by_cases hnone : bodiesOf definitions = []
      · simp [hnone]
      · simp [hnone]

theorem groupSection_eq_fileSection (groups : Catalog (List Definition)) :
    groupSection groups = fileSection (filesOf groups.entries) := by
  unfold fileSection
  by_cases hnone : filesOf groups.entries = []
  · rw [if_pos hnone, groupSection, packageBlocks_eq, hnone]
    rfl
  · rw [if_neg hnone, groupSection_eq, packageBlocks_eq]
    rw [packageBlocks_eq]
    exact mt List.map_eq_nil_iff.mp hnone

/-- The files have the bodies of all groups in turn. -/
theorem flatMap_filesOf (groups : List (String × List Definition)) :
    (filesOf groups).flatMap (·.2) = bodiesOf (groups.flatMap (·.2)) := by
  induction groups with
  | nil => rfl
  | cons group groups ih =>
      have hbodies : bodiesOf (group.2 ++ groups.flatMap (·.2))
          = bodiesOf group.2 ++ bodiesOf (groups.flatMap (·.2)) := by
        rw [bodiesOf, List.filterMap_append, List.map_append]
        rfl
      rw [List.flatMap_cons, hbodies, ← ih, filesOf, List.map_cons, List.filter_cons]
      by_cases hnone : bodiesOf group.2 = []
      · simp [hnone, filesOf]
      · simp [hnone, filesOf]

/-- Where the last body says something, a file is its listing. -/
theorem trimEnd_listing (hfile : file ∈ filesOf groups)
    (hlast : ∀ last ∈ file.2.getLast?, last ≠ []) : trimEnd (listing file) = listing file := by
  obtain ⟨hmem, hsome⟩ := List.mem_filter.mp hfile
  obtain ⟨group, -, rfl⟩ := List.mem_map.mp hmem
  obtain ⟨earlier, last, hbodies⟩ : ∃ earlier last, bodiesOf group.2 = earlier ++ [last] :=
    (List.eq_nil_or_concat' _).resolve_left (by simpa using hsome)
  have hvisible : last ≠ [] := hlast last (by rw [hbodies]; exact List.getLast?_concat)
  have htrimmed : last ∈ bodiesOf group.2 := by
    rw [hbodies]
    exact List.mem_append_right _ (List.mem_singleton_self last)
  obtain ⟨body, -, rfl⟩ := List.mem_map.mp htrimmed
  have hend : listing (group.1, bodiesOf group.2) = join ['\n', '\n']
      (("package ".toList ++ group.1.toList) :: earlier) ++ ['\n', '\n'] ++ trimEnd body.toList := by
    rw [listing, hbodies, ← List.cons_append, join_concat _ (List.cons_ne_nil _ _)]
  rw [hend]
  refine trimEnd_eq_self fun c hc => ?_
  rw [List.getLast?_append_of_ne_nil _ hvisible] at hc
  exact isBlank_getLast?_trimEnd hc

-- =============================================================== prompts

/-- A prompt shows the definitions of its closure, and it is the same in whatever order
they came in. They are parted into groups; the groups with bodies are files, each a
package clause and the bodies of its group; and the files together have every body
once, in the order of the groups. -/
theorem assemble_collected (hids : (definitions.map (·.id)).Nodup)
    (examples : List (List Char)) (source : List Char) :
    IsGrouping (collected definitions).byPackage.entries definitions
    ∧ (∀ others : List Definition, others.Perm definitions →
      assemble examples (collected others) source
        = assemble examples (collected definitions) source)
    ∧ ∃ files, files = filesOf (collected definitions).byPackage.entries
      ∧ assemble examples (collected definitions) source
        = exampleSection examples ++ fileSection files ++ focalSection source ++ instructions
      ∧ (∀ file ∈ files, file.2 ≠ [] ∧ ((∀ last ∈ file.2.getLast?, last ≠ []) →
        trimEnd (listing file) = listing file))
      ∧ files.flatMap (·.2)
        = bodiesOf ((collected definitions).byPackage.entries.flatMap (·.2))
      ∧ (files.flatMap (·.2)).Perm (bodiesOf definitions) := by
  have hgrouping := isGrouping_byPackage hids
  refine ⟨hgrouping, fun others hperm => ?_, _, rfl, ?_, fun file hfile => ⟨?_, ?_⟩,
    flatMap_filesOf _, ?_⟩
  · rw [collected_perm hperm hids]
  · rw [← groupSection_eq_fileSection]
    rfl
  · obtain ⟨-, hsome⟩ := List.mem_filter.mp hfile
    simpa using hsome
  · exact trimEnd_listing hfile
  · rw [flatMap_filesOf]
    exact (hgrouping.perm.filterMap _).map _

/-- Definitions of two packages with one short name, and one without a body. -/
def storeDefinitions : List Definition :=
  [.type ⟨⟨"lib/store.Item"⟩, "Item", ⟨"lib/store", "store"⟩, "lib/store/item.go",
    "type Item struct\n"⟩,
  .function ⟨⟨"clock.Now"⟩, "Now", ⟨"clock", "clock"⟩, none, none, "Now()", none⟩,
  .function ⟨⟨"app/store.Open"⟩, "Open", ⟨"app/store", "store"⟩, some "app/store/open.go", none,
    "func Open()", some "func Open()"⟩]

/-- The two packages make one file, and the third none. -/
theorem assemble_collected_store : (storeDefinitions.map (·.id)).Nodup
    ∧ IsGrouping (collected storeDefinitions).byPackage.entries storeDefinitions
    ∧ (collected storeDefinitions).byPackage.entries.map
        (fun group => (group.1, group.2.map (·.id.text)))
      = [("clock", ["clock.Now"]), ("store", ["app/store.Open", "lib/store.Item"])]
    ∧ assemble [] (collected storeDefinitions) []
      = fileSection [("store", ["func Open()".toList, "type Item struct".toList])]
        ++ focalSection [] ++ instructions
    ∧ assemble [] (collected storeDefinitions.reverse) []
      = assemble [] (collected storeDefinitions) [] := by
  have hids : (storeDefinitions.map (·.id)).Nodup := by decide +kernel
  obtain ⟨hgrouping, hsame, files, hfiles, hprompt, -⟩ := assemble_collected hids [] []
  obtain rfl : files = [("store", ["func Open()".toList, "type Item struct".toList])] :=
    hfiles.trans (by decide +kernel)
  exact ⟨hids, hgrouping, by decide +kernel, hprompt, hsame _ (List.reverse_perm _)⟩

end Assay.Prompt
