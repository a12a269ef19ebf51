/-
What is taken out with stale declarations, by offsets and by lines. The pass that
cuts copies slices of the text, and stretches may touch or overlap, so the slices
are shown to be in order and within the text (`slices`). For the lines everything
comes down to rows: a stretch holds an offset exactly when the offset's row meets
the stale declaration or a comment of the run above it, or is the blank line that
goes along (`held_staleSpans_iff`), so a line goes or stays as a whole.
-/
import Assay.Proofs.TestFile.Spans

namespace Assay.TestFile

open Syntax Text

variable {source : List Char} {declared : Declared} {nodes : List Tree}

-- =========================================================== the slices

/-- The characters of a stretch. -/
def Span.chars (source : List Char) (span : Span) : List Char :=
  (source.drop span.start).take (span.stop - span.start)

/-- The slices of a text that the pass copies, in the order in which it copies
them; `passed` characters have been passed before. -/
def slices (length passed : Nat) : List Span → List Span
  | [] => [⟨passed, length⟩]
  | span :: spans =>
    if span.start < passed then slices length (max passed span.stop) spans
    else ⟨passed, span.start⟩ :: slices length span.stop spans

/-- Slices of a text that come in order from an offset on. -/
structure Sliced (length passed : Nat) (spans : List Span) : Prop where
  apart : spans.Pairwise (·.stop ≤ ·.start)
  proper : ∀ span ∈ spans, span.start ≤ span.stop
  within : ∀ span ∈ spans, span.stop ≤ length
  later : ∀ span ∈ spans, passed ≤ span.start

theorem Sliced.cons {length passed : Nat} {span : Span} {spans : List Span}
    (sliced : Sliced length span.stop spans) (hstart : passed ≤ span.start)
    (hproper : span.start ≤ span.stop) (hwithin : span.stop ≤ length) :
    Sliced length passed (span :: spans) where
  apart := List.pairwise_cons.mpr ⟨sliced.later, sliced.apart⟩
  proper := List.forall_mem_cons.mpr ⟨hproper, sliced.proper⟩
  within := List.forall_mem_cons.mpr ⟨hwithin, sliced.within⟩
  later := List.forall_mem_cons.mpr
    ⟨hstart, fun other hmem => by have := sliced.later other hmem; omega⟩

theorem Sliced.mono {length passed earlier : Nat} {spans : List Span}
    (sliced : Sliced length passed spans) (hle : earlier ≤ passed) :
    Sliced length earlier spans :=
  { sliced with later := fun span hmem => Nat.le_trans hle (sliced.later span hmem) }

/-- The slices are in order and within the text, whatever the stretches' order. -/
theorem sliced_slices {length : Nat} {spans : List Span}
    (hproper : ∀ span ∈ spans, span.start ≤ span.stop)
    (hwithin : ∀ span ∈ spans, span.stop ≤ length) {passed : Nat} (hpassed : passed ≤ length) :
    Sliced length passed (slices length passed spans) := by
  induction spans generalizing passed with
  | nil =>
      refine Sliced.cons ?_ (Nat.le_refl _) hpassed (Nat.le_refl _)
      exact ⟨.nil, nofun, nofun, nofun⟩
  | cons span spans ih =>
      obtain ⟨hspan, hproper⟩ := List.forall_mem_cons.mp hproper
      obtain ⟨hstop, hwithin⟩ := List.forall_mem_cons.mp hwithin
      unfold slices
      split
      · exact (ih hproper hwithin (by omega)).mono (by omega)
      · next hahead =>
          refine Sliced.cons ?_ (Nat.le_refl _) (Nat.le_of_not_lt hahead) (by dsimp only; omega)
          exact (ih hproper hwithin hstop).mono hspan

/-- The pass copies the slices. -/
theorem cutFrom_eq_slices {spans : List Span} (hproper : ∀ span ∈ spans, span.start ≤ span.stop)
    (passed : Nat) : cutFrom passed (source.drop passed) spans
      = (slices source.length passed spans).flatMap (·.chars source) := by
  induction spans generalizing passed with
  | nil =>
      rw [cutFrom, slices, List.flatMap_singleton, Span.chars, List.take_of_length_le]
      rw [List.length_drop]
  | cons span spans ih =>
      obtain ⟨hspan, hproper⟩ := List.forall_mem_cons.mp hproper
      have hnext : (source.drop passed).drop (span.stop - passed)
          = source.drop (max passed span.stop) := by
        rw [List.drop_drop]
        congr 1
        omega
      unfold cutFrom slices
      rw [hnext, ih hproper]
      split
      · rfl
      · rw [List.flatMap_cons, Span.chars, show max passed span.stop = span.stop by omega]

-- ============================================================= the rows

/-- The comments directly above an offset, the nearest first; `before` holds what
comes before it, the nearest first. -/
def commentRun (source : List Char) (start : Nat) : (before : List Tree) → List Tree
  | [] => []
  | node :: before =>
    if node.kind = .comment && rowOf source node.stop + 1 == rowOf source start then
      node :: commentRun source node.start before
    else []

theorem commentRun_sublist (source : List Char) (start : Nat) (before : List Tree) :
    (commentRun source start before).Sublist before := by
  induction before generalizing start with
  | nil => exact .slnil
  | cons node before ih =>
      unfold commentRun
      split
      · exact (ih node.start).cons_cons node
      · exact List.nil_sublist _

/-- The row is one of those from the node's beginning to its end. -/
def Meets (source : List Char) (row : Nat) (node : Tree) : Prop :=
  rowOf source node.start ≤ row ∧ row ≤ rowOf source node.stop

instance (source : List Char) (row : Nat) (node : Tree) : Decidable (Meets source row node) :=
  inferInstanceAs (Decidable (_ ∧ _))

/-- A row goes: a stale declaration or a comment of the run directly above it
meets the row, or it is an empty line and comes right after the declaration. -/
inductive Goes (source : List Char) (declared : Declared) (nodes : List Tree) (row : Nat) :
    Prop where
  | declaration {before after : List Tree} {stale : Tree}
      (hnodes : nodes = before ++ stale :: after)
      (hstale : isStale source declared stale = true) (hmeets : Meets source row stale)
  | comment {before after : List Tree} {stale comment : Tree}
      (hnodes : nodes = before ++ stale :: after) (hstale : isStale source declared stale = true)
      (hrun : comment ∈ commentRun source stale.start before.reverse)
      (hmeets : Meets source row comment)
  | blank {before after : List Tree} {stale : Tree} (hnodes : nodes = before ++ stale :: after)
      (hstale : isStale source declared stale = true) (hnext : row = rowOf source stale.stop + 1)
      (hblank : (linesKept source)[row]? = some ['\n'])

/-- The rows above an offset's row, from the beginning of the comments on, are
those of the comments. -/
theorem exists_commentRun_iff {before : List Tree} {start : Nat} (passed : Passed before start)
    (row : Nat) : (∃ comment ∈ commentRun source start before, Meets source row comment)
      ↔ rowOf source (commentsStart source start before) ≤ row ∧ row < rowOf source start := by
  induction before generalizing start with
  | nil =>
      refine iff_of_false (fun ⟨_, hmem, _⟩ => List.not_mem_nil hmem) fun hrows => ?_
      rw [commentsStart] at hrows
      omega
  | cons node before ih =>
      obtain ⟨hnearest, hapart⟩ := List.pairwise_cons.mp passed.apart
      obtain ⟨hproper, hbefore⟩ := List.forall_mem_cons.mp passed.proper
      unfold commentRun commentsStart
      split
      · next habove =>
          have hnext := eq_of_beq (Bool.and_eq_true_iff.mp habove).2
          have passed' : Passed before node.start := ⟨hapart, hbefore, hnearest⟩
          have hfirst := rowOf_mono source (commentsStart_le source passed')
          have hnode := rowOf_mono source hproper
          rw [List.exists_mem_cons_iff, ih passed', Meets]
          omega
      · refine iff_of_false (fun ⟨_, hmem, _⟩ => List.not_mem_nil hmem) fun hrows => ?_
        omega

/-- The stretch of a declaration holds an offset exactly when the offset's row
meets the declaration or a comment above it, or is the empty line after it. -/
theorem holds_spanOf_iff {before : List Tree} {stale : Tree} (passed : Passed before stale.start)
    (hproper : stale.start ≤ stale.stop) (hwithin : stale.stop ≤ source.length) {i : Nat}
    (hi : i < source.length) :
    (spanOf source before stale).holds i = true
      ↔ (∃ comment ∈ commentRun source stale.start before, Meets source (rowOf source i) comment)
        ∨ Meets source (rowOf source i) stale
        ∨ (rowOf source i = rowOf source stale.stop + 1
          ∧ (linesKept source)[rowOf source i]? = some ['\n']) := by
  have hcomments := commentsStart_le source passed
  have hfirst := rowOf_mono source hcomments
  have hrows := rowOf_mono source hproper
  have hstart : (spanOf source before stale).start ≤ i
      ↔ rowOf source (commentsStart source stale.start before) ≤ rowOf source i :=
    lineStart_le_iff_rowOf_le (by omega)
  have hline := lt_lineEnd_iff_rowOf_le hwithin hi
  have hat := eq_lineEnd_iff hwithin hi
  have hfeed := getElem?_linesKept_rowOf hi
  have hstop : i < (spanOf source before stale).stop
      ↔ rowOf source i ≤ rowOf source stale.stop
        ∨ (rowOf source i = rowOf source stale.stop + 1
          ∧ (linesKept source)[rowOf source i]? = some ['\n']) := by
    rw [hfeed, ← hline, and_comm (a := source[i]? = _), ← and_assoc, ← hat]
    unfold spanOf
    dsimp only
    rw [List.head?_drop]
    split
    · next hblank =>
        rw [Nat.lt_succ_iff_lt_or_eq]
        exact or_congr_right ⟨fun heq => ⟨heq, heq ▸ hblank⟩, And.left⟩
    · next hother =>
        rw [or_iff_left]
        rintro ⟨heq, hat⟩
        exact hother (heq ▸ hat)
  rw [Span.holds_iff, hstart, hstop, exists_commentRun_iff passed, Meets]
  by_cases hempty : (linesKept source)[rowOf source i]? = some ['\n'] <;>
    simp only [hempty, and_true, and_false, or_false] <;> omega

/-- An offset is held exactly when its row goes. -/
theorem held_staleSpans_iff (placed : Placed source nodes) {i : Nat} (hi : i < source.length) :
    held (staleSpans source declared [] nodes) i = true
      ↔ Goes source declared nodes (rowOf source i) := by
  have hspan {before after : List Tree} {stale : Tree} (hnodes : nodes = before ++ stale :: after) :
      (spanOf source before.reverse stale).holds i = true
        ↔ (∃ comment ∈ commentRun source stale.start before.reverse,
            Meets source (rowOf source i) comment)
          ∨ Meets source (rowOf source i) stale
          ∨ (rowOf source i = rowOf source stale.stop + 1
            ∧ (linesKept source)[rowOf source i]? = some ['\n']) := by
    subst hnodes
    refine holds_spanOf_iff ?_ (placed.proper stale (by simp)) (placed.within stale (by simp)) hi
    rw [← List.reverse_reverse before] at placed
    exact placed.passed
  rw [held, List.any_eq_true]
  constructor
  · rintro ⟨span, hmem, hholds⟩
    obtain ⟨before, stale, after, hnodes, hstale, rfl⟩ := mem_staleSpans.mp hmem
    rw [List.append_nil] at hholds
    rcases (hspan hnodes).mp hholds with ⟨comment, hrun, hmeets⟩ | hmeets | ⟨hnext, hblank⟩
    · exact .comment hnodes hstale hrun hmeets
    · exact .declaration hnodes hstale hmeets
    · exact .blank hnodes hstale hnext hblank
  · have hof {before after : List Tree} {stale : Tree} (hnodes : nodes = before ++ stale :: after)
        (hstale : isStale source declared stale = true)
        (hholds : (spanOf source before.reverse stale).holds i = true) :
        ∃ span ∈ staleSpans source declared [] nodes, span.holds i = true :=
      ⟨_, mem_staleSpans.mpr ⟨before, stale, after, hnodes, hstale, rfl⟩,
        (List.append_nil before.reverse).symm ▸ hholds⟩
    intro hgoes
    cases hgoes with
    | declaration hnodes hstale hmeets =>
        exact hof hnodes hstale ((hspan hnodes).mpr (.inr (.inl hmeets)))
    | comment hnodes hstale hrun hmeets =>
        exact hof hnodes hstale ((hspan hnodes).mpr (.inl ⟨_, hrun, hmeets⟩))
    | blank hnodes hstale hnext hblank =>
        exact hof hnodes hstale ((hspan hnodes).mpr (.inr (.inr ⟨hnext, hblank⟩)))

-- ============================================================ the lines

/-- What is left of lines when those in some rows go; the first is in `row`. -/
inductive Remain (goes : Nat → Prop) : (row : Nat) → (lines left : List (List Char)) → Prop where
  | done {row : Nat} : Remain goes row [] []
  | keep {row : Nat} {line : List Char} {lines left : List (List Char)} (hstays : ¬ goes row)
      (remain : Remain goes (row + 1) lines left) : Remain goes row (line :: lines) (line :: left)
  | drop {row : Nat} {line : List Char} {lines left : List (List Char)} (hgoes : goes row)
      (remain : Remain goes (row + 1) lines left) : Remain goes row (line :: lines) left

/-- When what is held goes by rows, whole lines are left. -/
theorem remain_outside {goes : Nat → Prop} {spans : List Span} {row offset : Nat}
    (text : List Char)
    (hgoes : ∀ i < text.length, held spans (offset + i) = true ↔ goes (row + rowOf text i)) :
    Remain goes row (linesKept text) (linesKept (outside spans offset text)) := by
  induction text using byLine generalizing row offset with
  | last body hbody =>
      by_cases hsome : body = []
      · subst hsome
        exact .done
      · have hrow {i : Nat} (hi : i < body.length) : held spans (offset + i) = true ↔ goes row := by
          have hzero := rowOf_body hbody (Nat.le_of_lt hi) []
          rw [List.append_nil] at hzero
          rw [hgoes i hi, hzero, Nat.add_zero]
        rw [linesKept_last hbody hsome]
        by_cases hdrop : goes row
        · rw [outside_uniform fun i hi => (hrow hi).mpr hdrop, if_pos rfl]
          exact .drop hdrop .done
        · rw [outside_uniform fun i hi => Bool.eq_false_iff.mpr (mt (hrow hi).mp hdrop),
            if_neg Bool.false_ne_true, linesKept_last hbody hsome]
          exact .keep hdrop .done
  | line body more hbody ih =>
      have hlength : (body ++ ['\n']).length = body.length + 1 := List.length_append
      have hrow {i : Nat} (hi : i < (body ++ ['\n']).length) :
          held spans (offset + i) = true ↔ goes row := by
        rw [hgoes i (by simp; omega), rowOf_body hbody (by omega), Nat.add_zero]
      have hrest : Remain goes (row + 1) (linesKept more)
          (linesKept (outside spans (offset + (body ++ ['\n']).length) more)) := by
        refine ih fun i hi => ?_
        have hmore := hgoes (body.length + 1 + i) (by simp; omega)
        rw [rowOf_more hbody] at hmore
        rwa [hlength, Nat.add_assoc, Nat.add_assoc row, Nat.add_comm 1]
      rw [linesKept_line hbody, List.append_cons body '\n' more, outside_append]
      by_cases hdrop : goes row
      · rw [outside_uniform fun i hi => (hrow hi).mpr hdrop, if_pos rfl, List.nil_append]
        exact .drop hdrop hrest
      · rw [outside_uniform fun i hi => Bool.eq_false_iff.mpr (mt (hrow hi).mp hdrop),
          if_neg Bool.false_ne_true, List.append_assoc, List.singleton_append, linesKept_line hbody]
        exact .keep hdrop hrest

-- ======================================================= what is taken out

theorem stop_spanOf_le (before : List Tree) {node : Tree} (hwithin : node.stop ≤ source.length) :
    (spanOf source before node).stop ≤ source.length := by
  have hend := (le_lineEnd hwithin).2
  unfold spanOf
  dsimp only
  split
  · next hblank =>
      rw [List.head?_drop] at hblank
      exact (List.getElem?_eq_some_iff.mp hblank).1
  · exact hend

/-- What is cut out with the stale declarations, whatever nodes of a source come
in order. The pass copies slices that are in order and within the source, and
leaves what lies outside of the stretches. Every character goes of the stale
declarations and of the comments of the runs directly above them; and of the
lines, those go that meet such a declaration or comment, or that are the one empty
line after such a declaration. All others stay, in order. -/
theorem cut_staleSpans (declared : Declared) (placed : Placed source nodes) :
    Sliced source.length 0 (slices source.length 0 (staleSpans source declared [] nodes))
      ∧ cut source (staleSpans source declared [] nodes)
        = (slices source.length 0 (staleSpans source declared [] nodes)).flatMap (·.chars source)
      ∧ cut source (staleSpans source declared [] nodes)
        = outside (staleSpans source declared [] nodes) 0 source
      ∧ (∀ before stale after, nodes = before ++ stale :: after →
          isStale source declared stale = true →
          ∀ node ∈ stale :: commentRun source stale.start before.reverse,
            ∀ i, node.start ≤ i → i < node.stop →
              held (staleSpans source declared [] nodes) i = true)
      ∧ Remain (Goes source declared nodes) 0 (linesKept source)
          (linesKept (cut source (staleSpans source declared [] nodes))) := by
  have hproper : ∀ span ∈ staleSpans source declared [] nodes, span.start ≤ span.stop :=
    fun span hmem => proper_staleSpans placed hmem
  have hwithin : ∀ span ∈ staleSpans source declared [] nodes, span.stop ≤ source.length := by
    intro span hmem
    obtain ⟨before, stale, after, rfl, -, rfl⟩ := mem_staleSpans.mp hmem
    exact stop_spanOf_le _ (placed.within stale (by simp))
  have hcut : cut source (staleSpans source declared [] nodes)
      = outside (staleSpans source declared [] nodes) 0 source :=
    cut_eq (pairwise_staleSpans placed) hproper source
  refine ⟨sliced_slices hproper hwithin (Nat.zero_le _), cutFrom_eq_slices hproper 0, hcut, ?_, ?_⟩
  · intro before stale after hnodes hstale node hnode i hi hlt
    have hmeets : Meets source (rowOf source i) node :=
      ⟨rowOf_mono source hi, rowOf_mono source (Nat.le_of_lt hlt)⟩
    rcases List.mem_cons.mp hnode with rfl | hrun
    · have hstop := placed.within node (by simp [hnodes])
      exact (held_staleSpans_iff placed (by omega)).mpr (.declaration hnodes hstale hmeets)
    · have hbefore := (commentRun_sublist source stale.start before.reverse).subset hrun
      have hstop := placed.within node
        (hnodes ▸ List.mem_append_left _ (List.mem_reverse.mp hbefore))
      exact (held_staleSpans_iff placed (by omega)).mpr (.comment hnodes hstale hrun hmeets)
  · rw [hcut]
    refine remain_outside source fun i hi => ?_
    rw [Nat.zero_add, Nat.zero_add]
    exact held_staleSpans_iff placed hi

/-- A file with two declarations that share a line, the first under a run of
comments, and a third right after the empty line that goes along with them. -/
def stackedFile : List Char :=
  ("package calc\n\n// Apart.\n\n// Adds,\n// twice.\nfunc TestAdd(t *testing.T) \x7b\n"
    ++ "\x7d; var item int\n\ntype box int\n// Kept.\nfunc keep() \x7b\x7d").toList

/-- Another version of that test, with its declarations. -/
def stackedTest : GeneratedTest :=
  ⟨"TestAdd", "type box string\n\nvar item = 1\n\nfunc TestAdd(t *testing.T) \x7b\x7d".toList⟩

theorem cut_staleSpans_stackedFile :
    ∃ tree, parse? stackedFile = some tree
      ∧ Placed stackedFile tree.namedChildren
      ∧ cut stackedFile (staleSpans stackedFile (.ofTest stackedTest) [] tree.namedChildren)
        = "package calc\n\n// Apart.\n\n// Kept.\nfunc keep() \x7b\x7d".toList
      ∧ Remain (Goes stackedFile (.ofTest stackedTest) tree.namedChildren) 0
          (linesKept stackedFile) (linesKept (cut stackedFile
            (staleSpans stackedFile (.ofTest stackedTest) [] tree.namedChildren))) := by
  have hcut : (parse? stackedFile).map (fun tree =>
        cut stackedFile (staleSpans stackedFile (.ofTest stackedTest) [] tree.namedChildren))
      = some "package calc\n\n// Apart.\n\n// Kept.\nfunc keep() \x7b\x7d".toList := by
    rw [show stackedFile = _ from toList_append_literal String.toList_ofList]
    decide +kernel
  obtain ⟨tree, hparse, hleft⟩ := Option.map_eq_some_iff.mp hcut
  have placed := (laid_of_parse? hparse).placed
  exact ⟨tree, hparse, placed, hleft, (cut_staleSpans (.ofTest stackedTest) placed).2.2.2.2⟩

end Assay.TestFile
