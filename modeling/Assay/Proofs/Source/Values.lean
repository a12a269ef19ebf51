/-
The variables and constants that a package can be asked for. The search for a
value goes through everything below a declaration, so besides the declaration's
own specifications it comes by those in the function literals of initial values
(`Package.candidates`), and a local of such a literal can hide a variable of the
package. `findValue?_first` says which candidate it takes; that there are no
candidates but these is a fact of the grammar.
-/
import Assay.Proofs.Syntax.Specs
import Assay.Source.Package
import Assay.TestFile.Declared

namespace Assay.Source

open Syntax

-- ====================================================== specifications

/-- The place of a name among those that a specification declares. -/
def valueAt? (spec : Declaration) (name : String) : Option ValueSpec :=
  ((spec.node.parts .name).findIdx? fun word => spec.file.text word == name).map (⟨spec, ·⟩)

/-- The specifications of values below some trees, or at their roots. -/
def specsBelow (trees : List Tree) : List Tree :=
  (Tree.preorderAll trees).filter fun node => !node.kind.isPlain

/-- A specification that the search for a value comes by: a declaration's own, or
one that is nested in such a specification. -/
structure Candidate where
  spec : Declaration
  nested : Bool

/-- The candidates of one declaration, each of its own before those nested in
it. -/
def candidatesOf (declaration : Declaration) : List Candidate :=
  (TestFile.specs declaration.node).flatMap fun spec =>
    ⟨⟨declaration.file, spec⟩, false⟩
      :: (specsBelow spec.children).map fun inner => ⟨⟨declaration.file, inner⟩, true⟩

namespace Package

/-- The declarations of variables and constants at the top level. -/
def valueDeclarations (package : Package) : List Declaration :=
  package.topLevel.filter fun declaration =>
    declaration.node.kind == .varDeclaration || declaration.node.kind == .constDeclaration

/-- All candidates, in the order of the files and of the source. -/
def candidates (package : Package) : List Candidate :=
  package.valueDeclarations.flatMap candidatesOf

/-- The first candidate that declares a name. -/
def firstCandidate? (package : Package) (name : String) : Option Candidate :=
  package.candidates.find? fun candidate => (valueAt? candidate.spec name).isSome

/-- The variable or constant that the package declares under a name at its top
level; the first one, if there are several. -/
def topLevelValue? (package : Package) (name : String) : Option ValueSpec :=
  (package.valueDeclarations.flatMap fun declaration =>
    (TestFile.specs declaration.node).map (⟨declaration.file, ·⟩)).findSome? (valueAt? · name)

end Package

-- ============================================================ the kinds

/-- Two kinds of nodes specify values. -/
theorem isPlain_eq_false_iff {kind : Kind} :
    kind.isPlain = false ↔ kind = .varSpec ∨ kind = .constSpec := by
  cases kind <;> decide

/-- Two kinds of nodes declare values. -/
theorem isOther_eq_false_iff {kind : Kind} :
    kind.isOther = false ↔ kind = .varDeclaration ∨ kind = .constDeclaration := by
  cases kind <;> decide

/-- The search for values looks at the nodes that specify some. -/
theorem searched_eq (kind : Kind) :
    (kind == .varSpec || kind == .constSpec) = !kind.isPlain := by
  cases kind <;> decide

/-- The nodes that a declaration is asked for are specifications of some sort. -/
def isSpecification (node : Tree) : Bool :=
  node.kind == .typeSpec || node.kind == .typeAlias || node.kind == .varSpec
    || node.kind == .constSpec

/-- Where a declaration has specifications at a child. -/
def specParts (child : Tree) : List Tree :=
  if child.kind = .varSpecList then child.namedChildren else [child]

theorem specs_eq (declaration : Tree) : TestFile.specs declaration
    = (declaration.namedChildren.flatMap specParts).filter isSpecification := rfl

-- ======================================================== a declaration

variable {tree : Tree}

theorem specsBelow_append (first more : List Tree) :
    specsBelow (first ++ more) = specsBelow first ++ specsBelow more := by
  have happend : Tree.preorderAll (first ++ more)
      = Tree.preorderAll first ++ Tree.preorderAll more := by
    induction first with
    | nil => rfl
    | cons tree first ih =>
        rw [List.cons_append, Tree.preorderAll, ih, Tree.preorderAll, List.append_assoc]
  rw [specsBelow, happend, List.filter_append]
  rfl

theorem specsBelow_singleton (tree : Tree) : specsBelow [tree]
    = if tree.kind.isPlain then specsBelow tree.children
      else tree :: specsBelow tree.children := by
  cases tree with
  | node label children =>
      rw [specsBelow, Tree.preorderAll, Tree.preorderAll, List.append_nil, Tree.preorder,
        List.filter_cons]
      cases (Syntax.Tree.node label children).kind.isPlain <;> rfl

/-- A specification, followed by those nested in it. -/
def withNested (spec : Tree) : List Tree := spec :: specsBelow spec.children

theorem specsBelow_of_specs {trees : List Tree}
    (hall : ∀ tree ∈ trees, tree.IsSpec ∨ IsComment tree) :
    specsBelow trees
      = ((trees.filter (·.kind.isNamed)).filter isSpecification).flatMap withNested := by
  induction trees with
  | nil => rfl
  | cons tree trees ih =>
      obtain ⟨htree, htrees⟩ := List.forall_mem_cons.mp hall
      rw [← List.singleton_append, specsBelow_append, ih htrees, List.filter_append,
        List.filter_append, List.flatMap_append]
      congr 1
      rcases htree with ⟨hspec, -⟩ | ⟨piece, rfl⟩
      · have hnamed : tree.kind.isNamed = true ∧ isSpecification tree = true := by
          rcases isPlain_eq_false_iff.mp hspec with hkind | hkind
          · exact ⟨hkind ▸ rfl, by rw [isSpecification, hkind]; rfl⟩
          · exact ⟨hkind ▸ rfl, by rw [isSpecification, hkind]; rfl⟩
        rw [specsBelow_singleton, hspec, List.filter_singleton, hnamed.1, cond_true,
          List.filter_singleton, hnamed.2, cond_true, List.flatMap_singleton]
        rfl
      · rfl

/-- The specifications of values below a declaration are its own, each followed by
those nested in it. -/
theorem specsBelow_of_listsSpecs (lists : tree.ListsSpecs IsComment) :
    specsBelow tree.children = (TestFile.specs tree).flatMap withNested := by
  rw [specs_eq, Tree.namedChildren]
  unfold Tree.ListsSpecs at lists
  generalize tree.children = children at lists
  induction children with
  | nil => rfl
  | cons child children ih =>
      obtain ⟨hchild, hchildren⟩ := List.forall_mem_cons.mp lists
      have hsingle : specsBelow [child]
          = (([child].filter (·.kind.isNamed)).flatMap specParts
            |>.filter isSpecification).flatMap withNested := by
        have hself (hsome : child.IsSpec ∨ IsComment child) (hkind : child.kind ≠ .varSpecList) :
            specsBelow [child] = (([child].filter (·.kind.isNamed)).flatMap specParts
              |>.filter isSpecification).flatMap withNested := by
          rw [specsBelow_of_specs (List.forall_mem_singleton.mpr hsome), List.filter_singleton]
          cases child.kind.isNamed with
          | false => rfl
          | true => rw [cond_true, List.flatMap_singleton, specParts, if_neg hkind]
        rcases hchild with hspec | ⟨piece, rfl⟩ | ⟨hkind, hspecs⟩
        · refine hself (.inl hspec) fun hlist => ?_
          rw [Tree.IsSpec, hlist] at hspec
          cases hspec.1
        · exact hself (.inr ⟨piece, rfl⟩) nofun
        · rw [specsBelow_singleton, List.filter_singleton, hkind, if_pos rfl,
            specsBelow_of_specs hspecs, show Kind.varSpecList.isNamed = true from rfl, cond_true,
            List.flatMap_singleton, specParts, if_pos hkind]
          rfl
      rw [← List.singleton_append, specsBelow_append, ih hchildren, List.filter_append,
        List.flatMap_append, List.filter_append, List.flatMap_append, hsingle]

theorem isSpec_of_mem_specs (lists : tree.ListsSpecs IsComment) {spec : Tree}
    (hmem : spec ∈ TestFile.specs tree) : spec.IsSpec := by
  obtain ⟨hparts, hspecification⟩ := List.mem_filter.mp hmem
  have hnotComment : ¬ IsComment spec := by
    rintro ⟨piece, rfl⟩
    cases hspecification
  obtain ⟨child, hchild, hspec⟩ := List.mem_flatMap.mp hparts
  rcases lists child (List.mem_of_mem_filter hchild) with hown | hcomment | ⟨hkind, hspecs⟩
  · split at hspec
    · next hlist =>
        rw [Tree.IsSpec, hlist] at hown
        cases hown.1
    · obtain rfl := List.mem_singleton.mp hspec
      exact hown
  · split at hspec
    · next hlist =>
        obtain ⟨piece, rfl⟩ := hcomment
        cases hlist
    · obtain rfl := List.mem_singleton.mp hspec
      exact absurd hcomment hnotComment
  · rw [if_pos hkind] at hspec
    exact (hspecs spec (List.mem_of_mem_filter hspec)).resolve_right hnotComment

-- ============================================================ the search

section

variable {α β : Type} {f : α → Option β} {items : List α}

theorem findSome?_flatMap {γ : Type} (lists : γ → List α) (keys : List γ) :
    (keys.flatMap lists).findSome? f = keys.findSome? fun key => (lists key).findSome? f := by
  induction keys with
  | nil => rfl
  | cons key keys ih =>
      rw [List.flatMap_cons, List.findSome?_append, ih, List.findSome?_cons]
      cases (lists key).findSome? f <;> rfl

/-- Leaving items out makes no difference if the first that has an answer
stays. -/
theorem findSome?_filter {keep : α → Bool}
    (hkeep : ∀ item, (items.find? fun item => (f item).isSome) = some item → keep item = true) :
    (items.filter keep).findSome? f = items.findSome? f := by
  induction items with
  | nil => rfl
  | cons item items ih =>
      rw [List.find?_cons] at hkeep
      rw [List.filter_cons, List.findSome?_cons]
      cases hitem : f item with
      | some answer =>
          rw [hitem] at hkeep
          rw [if_pos (hkeep item rfl), List.findSome?_cons, hitem]
      | none =>
          rw [hitem] at hkeep
          rw [← ih hkeep]
          split
          · rw [List.findSome?_cons, hitem]
          · rfl

/-- The first item that has an answer gives it. -/
theorem findSome?_of_find? {item : α}
    (hfind : (items.find? fun item => (f item).isSome) = some item) :
    items.findSome? f = f item := by
  obtain ⟨hsome, before, after, rfl, hbefore⟩ := List.find?_eq_some_iff_append.mp hfind
  obtain ⟨answer, hanswer⟩ := Option.isSome_iff_exists.mp hsome
  rw [hanswer]
  refine List.findSome?_eq_some_iff.mpr ⟨before, item, after, rfl, hanswer, fun other hmem => ?_⟩
  have hother := hbefore other hmem
  rwa [Bool.not_eq_true', Option.isSome_eq_false_iff, Option.isNone_iff_eq_none] at hother

end

variable {package : Package}

/-- One declaration is searched candidate by candidate. -/
theorem valueIn?_eq {declaration : Declaration} (lists : declaration.node.ListsSpecs IsComment)
    (hkind : declaration.node.kind.isOther = false) (name : String) :
    Package.valueIn? declaration name
      = (candidatesOf declaration).findSome? (valueAt? ·.spec name) := by
  have hplain : declaration.node.kind.isPlain = true := by
    rcases isOther_eq_false_iff.mp hkind with hkind | hkind <;> rw [hkind]
  have hbelow : (declaration.node.preorder.filter fun node =>
      node.kind == .varSpec || node.kind == .constSpec) = specsBelow [declaration.node] := by
    rw [specsBelow, Tree.preorderAll, Tree.preorderAll, List.append_nil]
    exact List.filter_congr fun node _ => searched_eq node.kind
  have hcandidates : candidatesOf declaration
      = (TestFile.specs declaration.node).flatMap fun spec => ⟨⟨declaration.file, spec⟩, false⟩
        :: (specsBelow spec.children).map fun inner => ⟨⟨declaration.file, inner⟩, true⟩ := rfl
  rw [Package.valueIn?, hbelow, specsBelow_singleton, if_pos hplain, specsBelow_of_listsSpecs lists,
    hcandidates, findSome?_flatMap, findSome?_flatMap]
  refine congrArg (List.findSome? · _) (funext fun spec => ?_)
  rw [withNested, List.findSome?_cons, List.findSome?_cons, List.findSome?_map]
  rfl

/-- A package's files have been parsed. -/
theorem listsSpecs_of_mem (hparse : ∀ file ∈ package.files, parse? file.source = some file.tree)
    {declaration : Declaration} (hmem : declaration ∈ package.valueDeclarations) :
    declaration.node.kind.isOther = false ∧ declaration.node.ListsSpecs IsComment := by
  obtain ⟨htop, hdeclares⟩ := List.mem_filter.mp hmem
  obtain ⟨file, hfile, hplaced⟩ := List.mem_flatMap.mp htop
  obtain ⟨node, hnode, rfl⟩ := List.mem_map.mp hplaced
  have hkind : node.kind.isOther = false := by
    rcases Bool.or_eq_true_iff.mp hdeclares with hkind | hkind
    · exact isOther_eq_false_iff.mpr (.inl (eq_of_beq hkind))
    · exact isOther_eq_false_iff.mpr (.inr (eq_of_beq hkind))
  have hparsed := hparse file (List.mem_filter.mp hfile).1
  exact ⟨hkind, listsSpecs_of_parse? hparsed (List.mem_filter.mp hnode).1 hkind⟩

/-- The search goes through the candidates. -/
theorem findValue?_eq (hparse : ∀ file ∈ package.files, parse? file.source = some file.tree)
    (name : String) :
    package.findValue? name = package.candidates.findSome? (valueAt? ·.spec name) := by
  have hsearch : package.findValue? name
      = package.valueDeclarations.findSome? (Package.valueIn? · name) := rfl
  have hall : ∀ declaration ∈ package.valueDeclarations, Package.valueIn? declaration name
      = (candidatesOf declaration).findSome? (valueAt? ·.spec name) := by
    intro declaration hmem
    obtain ⟨hkind, lists⟩ := listsSpecs_of_mem hparse hmem
    exact valueIn?_eq lists hkind name
  rw [hsearch, Package.candidates, findSome?_flatMap]
  generalize package.valueDeclarations = declarations at hall
  induction declarations with
  | nil => rfl
  | cons declaration declarations ih =>
      obtain ⟨hfirst, hrest⟩ := List.forall_mem_cons.mp hall
      rw [List.findSome?_cons, List.findSome?_cons, hfirst, ih hrest]

/-- The declarations' own specifications are the candidates that are not
nested. -/
theorem topLevelValue?_eq (package : Package) (name : String) : package.topLevelValue? name
    = (package.candidates.filter (!·.nested)).findSome? (valueAt? ·.spec name) := by
  have hown (declaration : Declaration) : (candidatesOf declaration).filter (!·.nested)
      = (TestFile.specs declaration.node).map fun spec => ⟨⟨declaration.file, spec⟩, false⟩ := by
    unfold candidatesOf
    rw [List.filter_flatMap, List.map_eq_flatMap]
    refine List.flatMap_congr fun spec _ => ?_
    rw [List.filter_cons_of_pos rfl, List.filter_eq_nil_iff.mpr]
    intro candidate hmem
    obtain ⟨inner, -, rfl⟩ := List.mem_map.mp hmem
    exact Bool.false_ne_true
  rw [Package.candidates, List.filter_flatMap, Package.topLevelValue?, findSome?_flatMap,
    findSome?_flatMap]
  refine congrArg (List.findSome? · _) (funext fun declaration => ?_)
  rw [hown, List.findSome?_map, List.findSome?_map]
  rfl

/-- Nested candidates are inside of function literals. -/
theorem exists_literal_of_nested
    (hparse : ∀ file ∈ package.files, parse? file.source = some file.tree)
    {candidate : Candidate} (hmem : candidate ∈ package.candidates)
    (hnested : candidate.nested = true) :
    ∃ declaration ∈ package.valueDeclarations, candidate.spec.file = declaration.file
      ∧ ∃ spec ∈ TestFile.specs declaration.node, ∃ literal ∈ Tree.preorderAll spec.children,
        literal.kind = .funcLiteral ∧ candidate.spec.node ∈ Tree.preorderAll literal.children := by
  obtain ⟨declaration, hdeclaration, hcandidate⟩ := List.mem_flatMap.mp hmem
  obtain ⟨spec, hspec, hcandidate⟩ := List.mem_flatMap.mp hcandidate
  obtain ⟨-, lists⟩ := listsSpecs_of_mem hparse hdeclaration
  rcases List.mem_cons.mp hcandidate with rfl | hcandidate
  · cases hnested
  · obtain ⟨inner, hinner, rfl⟩ := List.mem_map.mp hcandidate
    obtain ⟨hbelow, hkind⟩ := List.mem_filter.mp hinner
    refine ⟨declaration, hdeclaration, rfl, spec, hspec, ?_⟩
    exact Tree.exists_literal_of_all (isSpec_of_mem_specs lists hspec).2 hbelow
      (Bool.not_eq_true' _ ▸ hkind)

/-- Which variable or constant of a package is found under a name. The search
comes by the own specifications of the declarations at the top level and by nested
ones, which are all inside of function literals there, and it takes the first that
declares the name. If that one is not nested, it is the first at the top level; if
it is, the local of the function literal is taken. A name that no candidate
declares is not found, and what the top level declares always is. -/
theorem findValue?_first
    (hparse : ∀ file ∈ package.files, parse? file.source = some file.tree) (name : String) :
    (∀ candidate ∈ package.candidates, candidate.nested = true →
        ∃ declaration ∈ package.valueDeclarations, candidate.spec.file = declaration.file
          ∧ ∃ spec ∈ TestFile.specs declaration.node, ∃ literal ∈ Tree.preorderAll spec.children,
            literal.kind = .funcLiteral
              ∧ candidate.spec.node ∈ Tree.preorderAll literal.children)
      ∧ (∀ candidate, package.firstCandidate? name = some candidate →
          package.findValue? name = valueAt? candidate.spec name
            ∧ (candidate.nested = false → package.topLevelValue? name = package.findValue? name))
      ∧ (package.firstCandidate? name = none →
          package.findValue? name = none ∧ package.topLevelValue? name = none)
      ∧ ((package.topLevelValue? name).isSome → (package.findValue? name).isSome) := by
  have hfound := findValue?_eq hparse name
  have htop := topLevelValue?_eq package name
  have hfirst (candidate : Candidate) (hfind : package.firstCandidate? name = some candidate) :
      package.findValue? name = valueAt? candidate.spec name :=
    hfound.trans (findSome?_of_find? hfind)
  have hsame (hkeep : ∀ candidate, package.firstCandidate? name = some candidate →
      (!candidate.nested) = true) : package.topLevelValue? name = package.findValue? name := by
    rw [hfound, htop]
    exact findSome?_filter hkeep
  have hnone (hfind : package.firstCandidate? name = none) : package.findValue? name = none := by
    rw [hfound, List.findSome?_eq_none_iff]
    intro candidate hmem
    have hno := List.find?_eq_none.mp hfind candidate hmem
    rwa [Bool.not_eq_true, Option.isSome_eq_false_iff, Option.isNone_iff_eq_none] at hno
  refine ⟨fun _ => exists_literal_of_nested hparse, fun candidate hfind => ⟨hfirst candidate hfind,
    fun hown => hsame fun other hother => ?_⟩, fun hfind => ⟨hnone hfind, ?_⟩, fun hsome => ?_⟩
  · obtain rfl := Option.some.inj (hfind.symm.trans hother)
    rw [hown]
    rfl
  · rw [hsame fun other hother => ?_, hnone hfind]
    cases hfind.symm.trans hother
  · cases hfind : package.firstCandidate? name with
    | none =>
        rw [hsame fun other hother => ?_, hnone hfind] at hsome
        · cases hsome
        · cases hfind.symm.trans hother
    | some candidate =>
        have hdeclares := List.find?_some hfind
        rw [hfirst candidate hfind]
        exact hdeclares

/-- A variable whose name a local in the initial value of another has, too. -/
def tillSource : List Char :=
  ("package till\n\nvar handler = func() \x7b\n\tvar item Box\n\titem.Open()\n\x7d\n\n"
    ++ "var item Chest\n").toList

/-- The package of that file. -/
def tillPackage (tree : Tree) : Package :=
  ⟨"till", "till", "/till", [.ofTree "/till/a.go" tillSource tree]⟩

theorem findValue?_first_till : ∃ tree, parse? tillSource = some tree
    ∧ (∀ file ∈ (tillPackage tree).files, parse? file.source = some file.tree)
    ∧ ((tillPackage tree).topLevelValue? "item").isSome
    ∧ ((tillPackage tree).findValue? "item").isSome := by
  have htop : (parse? tillSource).map (fun tree =>
      ((tillPackage tree).topLevelValue? "item").isSome) = some true := by
    unfold tillPackage
    rw [show tillSource = _ from Text.toList_append_literal String.toList_ofList]
    decide +kernel
  obtain ⟨tree, hparse, hsome⟩ := Option.map_eq_some_iff.mp htop
  have hfiles : ∀ file ∈ (tillPackage tree).files, parse? file.source = some file.tree :=
    List.forall_mem_singleton.mpr hparse
  exact ⟨tree, hparse, hfiles, hsome, (findValue?_first hfiles "item").2.2.2 hsome⟩

/-- The variable of the package is not found, but the local of the function
literal. -/
theorem findValue?_finds_local : ∃ tree, parse? tillSource = some tree
    ∧ ((tillPackage tree).topLevelValue? "item").map (·.declaration.text) = some "item Chest"
    ∧ ((tillPackage tree).findValue? "item").map (·.declaration.text) = some "item Box" := by
  have htexts : (parse? tillSource).map (fun tree =>
        (((tillPackage tree).topLevelValue? "item").map (·.declaration.text),
          ((tillPackage tree).findValue? "item").map (·.declaration.text)))
      = some (some "item Chest", some "item Box") := by
    unfold tillPackage
    rw [show tillSource = _ from Text.toList_append_literal String.toList_ofList]
    decide +kernel
  obtain ⟨tree, hparse, htexts⟩ := Option.map_eq_some_iff.mp htexts
  obtain ⟨htop, hfound⟩ := Prod.mk.inj htexts
  exact ⟨tree, hparse, htop, hfound⟩

end Assay.Source
