/-
What a saved test leaves of a file. The declarations that have nothing to do
with the test are meant to stay, and they do, unless the layout is against them:
what goes, goes by whole lines. `patch_keeps_unrelated_iff` says which of them
stay, that they stay word for word, and that they keep their order.
-/
import Assay.Proofs.TestFile.Spans
import Assay.Proofs.Text.Blank
import Assay.TestFile.Patch

namespace Assay.TestFile

open Syntax Text

-- ============================================================= in order

/-- Pieces occur in a text one after the other. -/
def InOrder : List (List Char) → List Char → Prop
  | [], _ => True
  | piece :: pieces, text => ∃ before rest, text = before ++ piece ++ rest ∧ InOrder pieces rest

variable {pieces : List (List Char)} {text : List Char}

theorem InOrder.append (inOrder : InOrder pieces text) (more : List Char) :
    InOrder pieces (text ++ more) := by
  induction pieces generalizing text with
  | nil => trivial
  | cons piece pieces ih =>
      obtain ⟨before, rest, rfl, hrest⟩ := inOrder
      exact ⟨before, rest ++ more, List.append_assoc .., ih hrest⟩

/-- Pieces that end in visible characters are still there when the text is
trimmed. -/
theorem InOrder.trimEnd (inOrder : InOrder pieces text)
    (hvisible : ∀ piece ∈ pieces, ∃ c, piece.getLast? = some c ∧ isBlank c = false) :
    InOrder pieces (trimEnd text) := by
  induction pieces generalizing text with
  | nil => trivial
  | cons piece pieces ih =>
      obtain ⟨before, rest, rfl, hrest⟩ := inOrder
      obtain ⟨⟨c, hc, hblank⟩, hvisible⟩ := List.forall_mem_cons.mp hvisible
      refine ⟨before, Text.trimEnd rest, trimEnd_append ?_ rest, ih hrest hvisible⟩
      rw [List.getLast?_append, hc, Option.some_or]
      rintro _ ⟨rfl⟩
      exact hblank

-- ========================================================= what is kept

variable {source : List Char} {spans : List Span}

/-- Nodes that stay occur in order in what is left. -/
theorem inOrder_outside {nodes : List Tree} (laid : Laid source nodes)
    (hstays : ∀ node ∈ nodes, Stays spans node) (offset : Nat)
    (hoffset : ∀ node ∈ nodes, offset ≤ node.start) :
    InOrder (nodes.map (·.chars source)) (outside spans offset (source.drop offset)) := by
  induction nodes generalizing offset with
  | nil => trivial
  | cons node nodes ih =>
      obtain ⟨hnext, hapart⟩ := List.pairwise_cons.mp laid.apart
      obtain ⟨hlies, hlater⟩ := List.forall_mem_cons.mp laid.lies
      obtain ⟨hnode, hstays⟩ := List.forall_mem_cons.mp hstays
      have hstart := hoffset node List.mem_cons_self
      have hsome := hlies.some
      have hkept : outside spans node.start (node.chars source) = node.chars source := by
        refine outside_eq_self fun i hi hlt => hnode i hi ?_
        rw [Tree.chars, List.length_take] at hlt
        omega
      refine ⟨outside spans offset ((source.drop offset).take (node.start - offset)),
        outside spans node.stop (source.drop node.stop), ?_, ih ⟨hapart, hlater⟩ hstays node.stop hnext⟩
      rw [outside_split offset (node.start - offset), List.drop_drop, Nat.add_sub_cancel' hstart,
        outside_split node.start (node.stop - node.start), List.drop_drop,
        Nat.add_sub_cancel' (Nat.le_of_lt hsome), List.append_assoc]
      exact congrArg (fun kept => _ ++ (kept ++ _)) hkept

-- ===================================================== the declarations

/-- A declaration that declares none of the names and methods that a test
declares. -/
def Unrelated (source : List Char) (declared : Declared) (declaration : Tree) : Prop :=
  match declaration.kind with
  | .importDeclaration => True
  | .typeDeclaration | .varDeclaration | .constDeclaration | .functionDeclaration =>
    ∀ name ∈ declaredNames source declaration, name ∉ declared.names
  | .methodDeclaration =>
    ∀ key, methodKey? source declaration = some key → key ∉ declared.methods
  | _ => False

variable {declared : Declared} {declaration : Tree}

theorem Unrelated.not_comment (unrelated : Unrelated source declared declaration) :
    declaration.kind ≠ .comment := by
  intro hkind
  rw [Unrelated, hkind] at unrelated
  exact unrelated

/-- Nothing unrelated is stale. -/
theorem Unrelated.not_isStale (unrelated : Unrelated source declared declaration) :
    isStale source declared declaration = false := by
  have hnames (hnone : ∀ name ∈ declaredNames source declaration, name ∉ declared.names)
      (fits : String → Bool) : ((declaredNames source declaration).any fun name =>
        declared.names.contains name && fits name) = false := by
    rw [List.any_eq_false]
    intro name hmem hfits
    exact hnone name hmem (List.contains_iff_mem.mp (Bool.and_eq_true_iff.mp hfits).1)
  have hspec (hnone : ∀ name ∈ declaredNames source declaration, name ∉ declared.names) :
      ((specs declaration).length == 1
        && (declaredNames source declaration).any declared.names.contains) = false := by
    have hany := hnames hnone fun _ => true
    simp only [Bool.and_true] at hany
    rw [hany, Bool.and_false]
  unfold Unrelated at unrelated
  unfold isStale
  dsimp only
  split at unrelated
  · next hkind => rw [hkind]
  · next hkind =>
      rw [hkind]
      exact hspec unrelated
  · next hkind =>
      rw [hkind]
      exact hspec unrelated
  · next hkind =>
      rw [hkind]
      exact hspec unrelated
  · next hkind =>
      rw [hkind]
      exact hnames unrelated _
  · next hkind =>
      rw [hkind]
      dsimp only
      split
      · next key hkey =>
          have hnot := unrelated key hkey
          rw [← Bool.not_eq_true, List.contains_iff_mem]
          exact hnot
      · rfl
  · exact unrelated.elim

-- ============================================================== patching

/-- The declaration shares a line with no stale one: it does not end where the
comments above one begin, and it does not begin where one ends. -/
def StandsApart (source : List Char) (declared : Declared) (nodes : List Tree)
    (declaration : Tree) : Prop :=
  ∀ before stale after, nodes = before ++ stale :: after → isStale source declared stale = true →
    ¬ SharesLine source before.reverse stale declaration

/-- An unrelated declaration stays exactly when it stands apart. -/
theorem Unrelated.stays_iff {nodes : List Tree} (laid : Laid source nodes)
    (hmem : declaration ∈ nodes) (unrelated : Unrelated source declared declaration) :
    Stays (staleSpans source declared [] nodes) declaration
      ↔ StandsApart source declared nodes declaration := by
  have hspan {before after : List Tree} {stale : Tree} (hnodes : nodes = before ++ stale :: after)
      (hstale : isStale source declared stale = true) :
      Stays [spanOf source before.reverse stale] declaration
        ↔ ¬ SharesLine source before.reverse stale declaration := by
    refine stays_spanOf_iff laid hnodes hmem unrelated.not_comment ?_
    rintro rfl
    rw [unrelated.not_isStale] at hstale
    cases hstale
  rw [TestFile.stays_iff]
  constructor
  · intro hstays before stale after hnodes hstale
    refine (hspan hnodes hstale).mp (hstays _ (mem_staleSpans.mpr ?_))
    exact ⟨before, stale, after, hnodes, hstale, by rw [List.append_nil]⟩
  · intro hapart span hmem
    obtain ⟨before, stale, after, hnodes, hstale, rfl⟩ := mem_staleSpans.mp hmem
    rw [List.append_nil]
    exact (hspan hnodes hstale).mpr (hapart before stale after hnodes hstale)

/-- But for blanks at its end, the rest of a file is what lies outside of the
stretches. -/
theorem trimEnd_withoutStale {existing : List Char} {tree : Tree} (test : GeneratedTest)
    (hparse : parse? existing = some tree) :
    trimEnd (withoutStale existing test)
      = trimEnd (outside (staleSpans existing (.ofTest test) [] tree.namedChildren) 0 existing) := by
  have laid := laid_of_parse? hparse
  have hsorted : (staleSpans existing (.ofTest test) [] tree.namedChildren).Pairwise
      (·.start ≤ ·.start) := pairwise_staleSpans laid.placed
  have hcut := cut_eq hsorted (fun _ => proper_staleSpans laid.placed) existing
  unfold withoutStale
  split
  · next hblank =>
      have hrest : allBlank (outside (staleSpans existing (.ofTest test) [] tree.namedChildren) 0
          existing) = true :=
        allBlank_iff.mpr fun c hc => allBlank_iff.mp hblank c (outside_sublist.subset hc)
      rw [trimEnd_eq_nil_iff.mpr hrest]
      rfl
  · rw [hparse]
    exact congrArg trimEnd hcut

/-- The characters of a node end in a visible one, unless it is a comment. -/
theorem getLast?_chars {node : Tree} (hlies : node.LiesIn source) (hkind : node.kind ≠ .comment) :
    ∃ c, (node.chars source).getLast? = some c ∧ isBlank c = false := by
  have hsome := hlies.some
  have hwithin := hlies.within
  obtain ⟨c, hc, hvisible⟩ := hlies.last hkind
  refine ⟨c, ?_, hvisible⟩
  rw [Tree.chars, List.getLast?_eq_getElem?, List.length_take, List.length_drop,
    List.getElem?_take_of_lt (by omega), List.getElem?_drop, ← hc]
  congr 1
  omega

/-- What occurs in the rest of a file occurs in the patched file. -/
theorem inOrder_patch {existing : List Char} {package : String} {test : GeneratedTest}
    (inOrder : InOrder pieces (trimEnd (withoutStale existing test))) :
    InOrder pieces (patch existing package test) := by
  unfold patch
  dsimp only
  refine .append (.append (.append ?_ _) _) _
  split
  · next hblank =>
      rw [trimEnd_eq_nil_iff.mpr hblank] at inOrder
      exact inOrder.append _
  · exact inOrder

/-- What a saved test leaves of a file that parses. But for blanks at its end,
the rest of the file is what lies outside of the stretches of stale
declarations; an unrelated declaration lies outside of all of them exactly when
it shares no line with a stale one; and the unrelated declarations for which
this holds are in the patched file, word for word and in their order. -/
theorem patch_keeps_unrelated_iff (existing : List Char) (package : String)
    (test : GeneratedTest) (tree : Tree) (hparse : parse? existing = some tree) :
    trimEnd (withoutStale existing test)
        = trimEnd (outside (staleSpans existing (.ofTest test) [] tree.namedChildren) 0 existing)
      ∧ (∀ declaration ∈ tree.namedChildren, Unrelated existing (.ofTest test) declaration →
          (Stays (staleSpans existing (.ofTest test) [] tree.namedChildren) declaration
            ↔ StandsApart existing (.ofTest test) tree.namedChildren declaration))
      ∧ ∀ kept : List Tree, kept.Sublist tree.namedChildren →
          (∀ declaration ∈ kept, Unrelated existing (.ofTest test) declaration
            ∧ StandsApart existing (.ofTest test) tree.namedChildren declaration) →
          InOrder (kept.map (·.chars existing)) (patch existing package test) := by
  have laid := laid_of_parse? hparse
  refine ⟨trimEnd_withoutStale test hparse,
    fun declaration hmem unrelated => unrelated.stays_iff laid hmem, ?_⟩
  intro kept hsub hkept
  have laid' : Laid existing kept := laid.sublist hsub
  have hstays : ∀ node ∈ kept,
      Stays (staleSpans existing (.ofTest test) [] tree.namedChildren) node := fun node hmem =>
    ((hkept node hmem).1.stays_iff laid (hsub.subset hmem)).mpr (hkept node hmem).2
  have hinOrder := inOrder_outside laid' hstays 0 fun _ _ => Nat.zero_le _
  rw [List.drop_zero] at hinOrder
  refine inOrder_patch (trimEnd_withoutStale test hparse ▸ hinOrder.trimEnd ?_)
  intro piece hmem
  obtain ⟨node, hnode, rfl⟩ := List.mem_map.mp hmem
  exact getLast?_chars (laid'.lies node hnode) (hkept node hnode).1.not_comment

/-- A file whose test stands directly below a type with a comment behind it. -/
def crowdedFile : List Char :=
  "package calc\n\ntype Item struct\x7b\x7d // an item\nfunc TestAdd(t *testing.T) \x7b\x7d\n".toList

/-- Another version of that test. -/
def loggingTest : GeneratedTest :=
  ⟨"TestAdd", "func TestAdd(t *testing.T) \x7b t.Log() \x7d".toList⟩

theorem patch_keeps_unrelated_crowdedFile :
    ∃ tree, parse? crowdedFile = some tree
      ∧ ∀ declaration ∈ tree.namedChildren,
        Unrelated crowdedFile (.ofTest loggingTest) declaration →
          (Stays (staleSpans crowdedFile (.ofTest loggingTest) [] tree.namedChildren) declaration
            ↔ StandsApart crowdedFile (.ofTest loggingTest) tree.namedChildren declaration) := by
  have hparses : (parse? crowdedFile).isSome = true := by
    rw [show crowdedFile = _ from String.toList_ofList]
    decide +kernel
  obtain ⟨tree, hparse⟩ := Option.isSome_iff_exists.mp hparses
  exact ⟨tree, hparse, (patch_keeps_unrelated_iff crowdedFile "calc" loggingTest tree hparse).2.1⟩

/-- The type goes with the comment above the test, because the comment is behind
the type. -/
theorem patch_loses_type : patch crowdedFile "calc" loggingTest
    = "package calc\n\nfunc TestAdd(t *testing.T) \x7b t.Log() \x7d\n".toList := by
  rw [show crowdedFile = _ from String.toList_ofList]
  decide +kernel

end Assay.TestFile
