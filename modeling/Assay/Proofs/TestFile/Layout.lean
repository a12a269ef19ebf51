/-
The layout of a file that tests were saved to, and what one more save makes of
it. A file of this layout is a package clause and functions, one blank line
apart (`savedText`); where it is read as it is written, a save takes out the
function of the test's name, from its first character to the beginning of what
follows, and appends the test. So what it leaves is again of this layout, for
the functions that are left and the new one (`patch_savedText`).

A function goes with the blank line behind it, the last one with the line feed
that ends the file. The text is therefore read as pieces, each a function and
what parts it from the next (`piece`): the stretches of stale declarations are
whole pieces, and the separator that is left over at the end is trimmed.
-/
import Assay.Proofs.Syntax.Faults
import Assay.Proofs.TestFile.Again

namespace Assay.TestFile

open Syntax Text

variable {tests : List GeneratedTest} {test : GeneratedTest} {package : String}
  {keep : GeneratedTest → Bool} {text first : List Char}

-- ============================================================ the layout

/-- What a package clause says. -/
def clauseText (package : String) : List Char := "package ".toList ++ package.toList

/-- A package clause and the texts of tests, one blank line apart. -/
def savedText (package : String) (tests : List GeneratedTest) : List Char :=
  join ['\n', '\n'] (clauseText package :: tests.map (trim ·.source)) ++ ['\n']

/-- The blank line between a test and the next, when there is one. -/
def gap (later : List GeneratedTest) : List Char := if later.isEmpty then [] else ['\n']

/-- A test's text, and what parts it from what is later in the file. -/
def piece (test : GeneratedTest) (later : List GeneratedTest) : List Char :=
  trim test.source ++ gap later ++ ['\n']

/-- The pieces of the tests that are kept. -/
def pieces (keep : GeneratedTest → Bool) : List GeneratedTest → List Char
  | [] => []
  | test :: later => (if keep test then piece test later else []) ++ pieces keep later

/-- A saved file is its clause, a blank line and its pieces. -/
theorem savedText_eq (package : String) (hsome : tests ≠ []) : savedText package tests
    = clauseText package ++ '\n' :: '\n' :: pieces (fun _ => true) tests := by
  unfold savedText
  generalize clauseText package = clause
  induction tests generalizing clause with
  | nil => exact absurd rfl hsome
  | cons test later ih =>
      rw [List.map_cons, ← join_cons_cons]
      cases later with
      | nil => simp [join, pieces, piece, gap]
      | cons next later =>
          rw [ih (List.cons_ne_nil _ _)]
          simp [pieces, piece, gap]

/-- A file that was saved to has the new test at its end. -/
theorem savedText_concat (package : String) (tests : List GeneratedTest) (test : GeneratedTest) :
    savedText package (tests ++ [test])
    = join ['\n', '\n'] (clauseText package :: tests.map (trim ·.source)) ++ appended test := by
  unfold savedText
  rw [List.map_append, List.map_singleton, ← List.cons_append,
    join_concat _ (List.cons_ne_nil _ _)]
  simp [appended]

/-- Trimming takes off what parts the last of the kept pieces from nothing. -/
theorem trimEnd_pieces (hfirst : ∀ c ∈ first.getLast?, isBlank c = false)
    (htests : ∀ test ∈ tests, trim test.source ≠ []) :
    trimEnd (first ++ '\n' :: '\n' :: pieces keep tests)
      = join ['\n', '\n'] (first :: (tests.filter keep).map (trim ·.source)) := by
  induction tests generalizing first with
  | nil =>
      rw [trimEnd_append hfirst]
      show first ++ [] = first
      exact List.append_nil first
  | cons test later ih =>
      obtain ⟨htest, hlater⟩ := List.forall_mem_cons.mp htests
      rw [pieces, List.filter_cons]
      by_cases hkeep : keep test = true
      · have hlast : ∀ c ∈ (first ++ ['\n', '\n'] ++ trim test.source).getLast?,
            isBlank c = false := by
          rw [List.getLast?_append_of_ne_nil _ htest]
          exact fun c hc => isBlank_getLast?_trim hc
        rw [if_pos hkeep, if_pos hkeep, List.map_cons, ← join_cons_cons]
        cases later with
        | nil =>
            have htrim := trimEnd_append hlast ['\n']
            simpa [piece, gap, pieces, join, trimEnd, isBlank] using htrim
        | cons next later =>
            rw [← ih hlast hlater]
            simp [piece, gap]
      · rw [if_neg hkeep, if_neg hkeep, List.nil_append]
        exact ih hfirst hlater

-- ============================================================= reading

/-- Nodes are the functions of the tests, each where its text is; the first
begins at `offset`. -/
def placed (text : List Char) : (offset : Nat) → List GeneratedTest → List Tree → Bool
  | _, [], [] => true
  | offset, test :: later, node :: nodes =>
    node.kind == .functionDeclaration && declaredNames text node == [test.name]
      && takesTestingT text node
      && node.start == offset && node.stop == offset + (trim test.source).length
      && placed text (offset + (piece test later).length) later nodes
  | _, _, _ => false

/-- The file is read as it is written: its top level is the package clause and
the functions. -/
def readAsWritten (package : String) (tests : List GeneratedTest) : Bool :=
  let text := savedText package tests
  match (parse? text).map (·.namedChildren) with
  | some (clause :: functions) =>
    clause.kind == .packageClause && clause.start == 0
      && clause.stop == (clauseText package).length
      && placed text ((clauseText package).length + 2) tests functions
  | _ => false

/-- The test brings along no name but its own. -/
def DeclaresItself (test : GeneratedTest) : Prop :=
  ∀ name ∈ (Declared.ofTest test).names, name = test.name

/-- The test's source is one function declaration, of the test's name. -/
def isOneFunction (test : GeneratedTest) : Bool :=
  match parse? (clauseLine ++ test.source) with
  | none => false
  | some tree => match tree.namedChildren with
    | [clause, function] => clause.kind == .packageClause
        && declaredNames (clauseLine ++ test.source) function == [test.name]
    | _ => false

theorem declaresItself_of_isOneFunction (hone : isOneFunction test = true) :
    DeclaresItself test := by
  unfold isOneFunction at hone
  split at hone
  · cases hone
  · next tree hparse =>
      split at hone
      · next clause function hnodes =>
          obtain ⟨hclause, hnames⟩ := Bool.and_eq_true_iff.mp hone
          have hnone : declaredNames (clauseLine ++ test.source) clause = [] := by
            rw [declaredNames, eq_of_beq hclause]
          intro name hmem
          simp only [Declared.ofTest, Declared.ofTree, (mended_of_parse? hparse).2, hnodes,
            List.flatMap_cons, List.flatMap_nil, hnone, eq_of_beq hnames, List.nil_append,
            List.append_nil] at hmem
          simpa using hmem
      · cases hone

/-- What `placed` says of the first test. -/
structure Stands (text : List Char) (offset : Nat) (test : GeneratedTest) (node : Tree) : Prop where
  kind : node.kind = .functionDeclaration
  names : declaredNames text node = [test.name]
  takes : takesTestingT text node = true
  start : node.start = offset
  stop : node.stop = offset + (trim test.source).length

theorem placed_cons_iff {offset : Nat} {later : List GeneratedTest} {nodes : List Tree} :
    placed text offset (test :: later) nodes = true ↔ ∃ node others, nodes = node :: others
      ∧ Stands text offset test node
      ∧ placed text (offset + (piece test later).length) later others = true := by
  cases nodes with
  | nil => simp [placed]
  | cons node nodes =>
      simp only [placed, Bool.and_eq_true, beq_iff_eq]
      constructor
      · intro ⟨⟨⟨⟨⟨hkind, hnames⟩, htakes⟩, hstart⟩, hstop⟩, hlater⟩
        exact ⟨node, nodes, rfl, ⟨hkind, hnames, htakes, hstart, hstop⟩, hlater⟩
      · intro ⟨_, _, hnodes, stands, hlater⟩
        obtain ⟨rfl, rfl⟩ := List.cons.inj hnodes
        exact ⟨⟨⟨⟨⟨stands.kind, stands.names⟩, stands.takes⟩, stands.start⟩, stands.stop⟩, hlater⟩

theorem placed_nil_iff {offset : Nat} {nodes : List Tree} :
    placed text offset [] nodes = true ↔ nodes = [] := by
  cases nodes <;> simp [placed]

/-- A test's text is not empty when a function stands there. -/
theorem trim_ne_nil_of_placed {offset : Nat} {nodes : List Tree}
    (hplaced : placed text offset tests nodes = true)
    (hlies : ∀ node ∈ nodes, node.LiesIn text) : ∀ test ∈ tests, trim test.source ≠ [] := by
  induction tests generalizing offset nodes with
  | nil => exact fun test hmem => absurd hmem List.not_mem_nil
  | cons test later ih =>
      obtain ⟨node, others, rfl, stands, hlater⟩ := placed_cons_iff.mp hplaced
      obtain ⟨hnode, hothers⟩ := List.forall_mem_cons.mp hlies
      refine List.forall_mem_cons.mpr ⟨fun hempty => ?_, ih hlater hothers⟩
      have hsome := hnode.some
      rw [stands.start, stands.stop, hempty, List.length_nil] at hsome
      omega

-- ========================================================== one piece

/-- The function of a test is stale exactly when the new test has its name. -/
theorem isStale_of_stands {offset : Nat} {node : Tree} {saved : GeneratedTest}
    (stands : Stands text offset saved node) (hitself : DeclaresItself test) :
    isStale text (.ofTest test) node = (saved.name == test.name) := by
  have hcontains : (Declared.ofTest test).names.contains saved.name
      = (saved.name == test.name) := by
    by_cases hsame : saved.name = test.name
    · rw [hsame, beq_self_eq_true]
      exact List.contains_iff_mem.mpr List.mem_cons_self
    · rw [beq_eq_false_iff_ne.mpr hsame, ← Bool.not_eq_true, List.contains_iff_mem]
      exact fun hmem => hsame (hitself saved.name hmem)
  rw [isStale, stands.kind, stands.names, stands.takes]
  simp only [List.any_cons, List.any_nil, Bool.or_true, Bool.and_true, Bool.or_false]
  exact hcontains

theorem lineEnd_feed {offset : Nat} {rest : List Char} (hdrop : text.drop offset = '\n' :: rest) :
    lineEnd text offset = offset + 1 := by
  unfold lineEnd
  rw [hdrop]
  rfl

/-- The stretch of a function is its piece. -/
theorem spanOf_of_stands {before : List Tree} {node : Tree} {saved : GeneratedTest}
    {later : List GeneratedTest}
    (htext : text = first ++ '\n' :: (piece saved later ++ pieces (fun _ => true) later))
    (stands : Stands text (first.length + 1) saved node)
    (hbefore : ∀ nearest ∈ before.head?, nearest.kind ≠ .comment) :
    spanOf text before node
      = ⟨first.length + 1, first.length + 1 + (piece saved later).length⟩ := by
  have hcomments : commentsStart text node.start before = node.start := by
    cases before with
    | nil => rfl
    | cons nearest before =>
        rw [commentsStart, decide_eq_false (hbefore nearest rfl), Bool.false_and]
        rfl
  have hlength : (piece saved later).length
      = (trim saved.source).length + (gap later).length + 1 := by
    rw [piece, List.length_append, List.length_append, List.length_singleton]
  have hdrop : text.drop node.stop = gap later ++ '\n' :: pieces (fun _ => true) later := by
    have hsplit : text = (first ++ '\n' :: trim saved.source)
        ++ (gap later ++ '\n' :: pieces (fun _ => true) later) := by
      rw [htext, piece]
      simp
    rw [stands.stop, hsplit]
    refine List.drop_left' ?_
    rw [List.length_append, List.length_cons]
    omega
  unfold spanOf
  dsimp only
  rw [hcomments, stands.start, htext, lineStart_feed, ← htext, hlength]
  cases later with
  | nil =>
      have hend : lineEnd text node.stop = node.stop + 1 := lineEnd_feed hdrop
      have hrest : text.drop (node.stop + 1) = [] := by rw [← List.drop_drop, hdrop]; rfl
      rw [hend, hrest, if_neg (by simp), stands.stop]
      rfl
  | cons next later =>
      have hend : lineEnd text node.stop = node.stop + 1 := lineEnd_feed hdrop
      have hrest : (text.drop (node.stop + 1)).head? = some '\n' := by
        rw [← List.drop_drop, hdrop]
        rfl
      rw [hend, if_pos hrest, stands.stop]
      rfl

-- ============================================================= one save

/-- The test does not make way for the new one. -/
def outlasts (test saved : GeneratedTest) : Bool := saved.name != test.name

/-- What is cut out of the pieces are those of the test's name. The stretches
begin no earlier than the pieces. -/
theorem outside_pieces (hitself : DeclaresItself test) {before nodes : List Tree}
    (htext : text = first ++ '\n' :: pieces (fun _ => true) tests)
    (hplaced : placed text (first.length + 1) tests nodes = true)
    (hbefore : ∀ nearest ∈ before.head?, nearest.kind ≠ .comment) :
    (∀ span ∈ staleSpans text (.ofTest test) before nodes, first.length + 1 ≤ span.start)
      ∧ outside (staleSpans text (.ofTest test) before nodes) (first.length + 1)
          (pieces (fun _ => true) tests)
        = pieces (outlasts test) tests := by
  induction tests generalizing first before nodes with
  | nil =>
      obtain rfl := placed_nil_iff.mp hplaced
      exact ⟨fun span hmem => absurd hmem List.not_mem_nil, rfl⟩
  | cons saved later ih =>
      obtain ⟨node, others, rfl, stands, hlater⟩ := placed_cons_iff.mp hplaced
      have hpieces : pieces (fun _ => true) (saved :: later)
          = piece saved later ++ pieces (fun _ => true) later := rfl
      -- The piece ends in the line feed that comes before the next one.
      have hnext : text = (first ++ '\n' :: (trim saved.source ++ gap later))
          ++ '\n' :: pieces (fun _ => true) later := by
        rw [htext, hpieces, piece]
        simp
      have hlength : (first ++ '\n' :: (trim saved.source ++ gap later)).length + 1
          = first.length + 1 + (piece saved later).length := by
        simp only [piece, List.length_append, List.length_cons, List.length_nil]
        omega
      have hnearest : ∀ nearest ∈ (node :: before).head?, nearest.kind ≠ .comment := by
        intro nearest hmem
        obtain rfl := Option.some.inj hmem
        rw [stands.kind]
        exact Kind.noConfusion
      obtain ⟨hstarts, hrest⟩ := ih hnext (hlength ▸ hlater) hnearest
      rw [hlength] at hstarts hrest
      have hkept : pieces (outlasts test) (saved :: later)
          = (if saved.name != test.name then piece saved later else [])
            ++ pieces (outlasts test) later := rfl
      rw [staleSpans, isStale_of_stands stands hitself, hkept, bne, hpieces]
      cases saved.name == test.name with
      | true =>
          rw [if_pos rfl, spanOf_of_stands (hpieces ▸ htext) stands hbefore]
          constructor
          · intro span hmem
            rcases List.mem_cons.mp hmem with rfl | hmem
            · exact Nat.le_refl _
            · exact Nat.le_trans (Nat.le_add_right _ _) (hstarts span hmem)
          · rw [outside_cons (Nat.le_refl _), Nat.add_sub_cancel_left, List.drop_left,
              Nat.max_eq_right (Nat.le_add_right _ _), hrest]
            rfl
      | false =>
          rw [if_neg Bool.false_ne_true]
          constructor
          · exact fun span hmem => Nat.le_trans (Nat.le_add_right _ _) (hstarts span hmem)
          · rw [outside_append_of_starts hstarts, hrest]
            rfl

theorem exists_of_readAsWritten (hread : readAsWritten package tests = true) :
    ∃ tree clause functions, parse? (savedText package tests) = some tree
      ∧ tree.namedChildren = clause :: functions ∧ clause.kind = .packageClause
      ∧ clause.start = 0 ∧ clause.stop = (clauseText package).length
      ∧ placed (savedText package tests) ((clauseText package).length + 2) tests functions = true := by
  unfold readAsWritten at hread
  cases hparse : parse? (savedText package tests) with
  | none => simp [hparse] at hread
  | some tree =>
      cases hnodes : tree.namedChildren with
      | nil => simp [hparse, hnodes] at hread
      | cons clause functions =>
          simp only [hparse, hnodes, Option.map_some, Bool.and_eq_true, beq_iff_eq] at hread
          obtain ⟨⟨⟨hkind, hstart⟩, hstop⟩, hplaced⟩ := hread
          exact ⟨tree, clause, functions, rfl, hnodes, hkind, hstart, hstop, hplaced⟩

/-- But for blanks at the end, what a save leaves of a file that is read as it is
written are the clause and the functions of other names. -/
theorem trimEnd_withoutStale_savedText (hsome : tests ≠ [])
    (hread : readAsWritten package tests = true) (hitself : DeclaresItself test) :
    trimEnd (withoutStale (savedText package tests) test)
      = join ['\n', '\n'] (clauseText package
          :: (tests.filter (outlasts test)).map (trim ·.source)) := by
  obtain ⟨tree, clause, functions, hparse, hnodes, hkind, hstart, hstop, hplaced⟩ :=
    exists_of_readAsWritten hread
  have htext := savedText_eq package hsome
  generalize savedText package tests = text at hparse hplaced htext ⊢
  have laid := laid_of_parse? hparse
  rw [trimEnd_withoutStale test hparse]
  rw [hnodes] at laid ⊢
  obtain ⟨hclause, hfunctions⟩ := List.forall_mem_cons.mp laid.lies
  have hcomment : clause.kind ≠ .comment := by
    rw [hkind]
    exact Kind.noConfusion
  -- The clause is not stale, and it ends in a visible character.
  have hspans : staleSpans text (.ofTest test) [] (clause :: functions)
      = staleSpans text (.ofTest test) [clause] functions := by
    rw [staleSpans, isStale, hkind, if_neg Bool.false_ne_true]
  have hvisible : ∀ c ∈ (clauseText package).getLast?, isBlank c = false := by
    have hchars : clause.chars text = clauseText package := by
      rw [Tree.chars, hstart, hstop, htext]
      exact List.take_left
    obtain ⟨c, hc, hblank⟩ := getLast?_chars hclause hcomment
    rw [← hchars, hc]
    intro d hd
    obtain rfl := Option.some.inj hd
    exact hblank
  have hhead : (clauseText package ++ ['\n', '\n']).length = (clauseText package).length + 2 :=
    List.length_append
  have hhead' : (clauseText package ++ ['\n']).length + 1 = (clauseText package).length + 2 := by
    rw [List.length_append, List.length_singleton]
  have hsplit : text = (clauseText package ++ ['\n', '\n']) ++ pieces (fun _ => true) tests := by
    rw [htext, List.append_assoc]
    rfl
  have hsplit' : text
      = (clauseText package ++ ['\n']) ++ '\n' :: pieces (fun _ => true) tests := by
    rw [htext, List.append_assoc]
    rfl
  have hbefore : ∀ nearest ∈ [clause].head?, nearest.kind ≠ .comment := by
    intro nearest hmem
    rwa [← Option.some.inj hmem]
  obtain ⟨hstarts, houtside⟩ := outside_pieces hitself hsplit' (hhead' ▸ hplaced) hbefore
  rw [hhead'] at hstarts houtside
  rw [hspans, ← trimEnd_pieces hvisible (trim_ne_nil_of_placed hplaced hfunctions)]
  generalize staleSpans text (.ofTest test) [clause] functions = spans at hstarts houtside
  rw [hsplit, outside_append_of_starts (by rwa [Nat.zero_add, hhead]), Nat.zero_add, hhead,
    houtside, List.append_assoc]
  rfl

/-- A save into a file that is read as it is written: the functions of other
names stay as they are, and the new test comes after them. -/
theorem patch_savedText (hsome : tests ≠ []) (hread : readAsWritten package tests = true)
    (hitself : DeclaresItself test) (other : String) :
    patch (savedText package tests) other test
      = savedText package (tests.filter (outlasts test) ++ [test]) := by
  have hstale := trimEnd_withoutStale_savedText hsome hread hitself
  have hbase : ¬ allBlank (withoutStale (savedText package tests) test) = true := by
    intro hblank
    rw [trimEnd_eq_nil_iff.mpr hblank] at hstale
    exact join_cons_ne_nil (List.append_ne_nil_of_left_ne_nil (by decide) _) hstale.symm
  rw [patch_eq, front, if_neg hbase, hstale, savedText_concat]

/-- A save into a file without content. -/
theorem patch_of_allBlank (hblank : allBlank text = true) :
    patch text package test = savedText package [test] := by
  have hbase : withoutStale text test = [] := if_pos hblank
  rw [patch_eq, front, hbase, if_pos (show allBlank [] = true from rfl)]
  exact (savedText_concat package [] test).symm

end Assay.TestFile
