/-
Where the stretches of stale declarations lie among the declarations of a file.
Each goes from the line on which the comments above its declaration begin to the
line on which the declaration ends. So it can reach into another declaration
only on one of these two lines, and there it always does: whole lines go.
-/
import Assay.Proofs.Syntax.TopLevel
import Assay.Proofs.TestFile.Cut
import Assay.Proofs.Text.Rows

namespace Assay.TestFile

open Syntax Text

variable {source : List Char} {declared : Declared}

-- ============================================================ the nodes

/-- Nodes of a source that come in order and do not overlap. -/
structure Placed (source : List Char) (nodes : List Tree) : Prop where
  apart : nodes.Pairwise (·.stop ≤ ·.start)
  proper : ∀ node ∈ nodes, node.start ≤ node.stop
  within : ∀ node ∈ nodes, node.stop ≤ source.length

/-- Nodes that come in order, each with characters of the source. -/
structure Laid (source : List Char) (nodes : List Tree) : Prop where
  apart : nodes.Pairwise (·.stop ≤ ·.start)
  lies : ∀ node ∈ nodes, node.LiesIn source

theorem Laid.placed {nodes : List Tree} (laid : Laid source nodes) : Placed source nodes where
  apart := laid.apart
  proper node hmem := Nat.le_of_lt (laid.lies node hmem).some
  within node hmem := (laid.lies node hmem).within

/-- So it is with the nodes of a source that parses. -/
theorem laid_of_parse? {tree : Tree} (hparse : parse? source = some tree) :
    Laid source tree.namedChildren :=
  ⟨(topLevel_of_parse? hparse).1, (topLevel_of_parse? hparse).2⟩

theorem Laid.sublist {nodes fewer : List Tree} (laid : Laid source nodes)
    (hsub : fewer.Sublist nodes) : Laid source fewer :=
  ⟨laid.apart.sublist hsub, fun node hmem => laid.lies node (hsub.subset hmem)⟩

/-- Nodes passed on the way to an offset, the nearest first. -/
structure Passed (before : List Tree) (start : Nat) : Prop where
  apart : before.Pairwise fun later earlier => earlier.stop ≤ later.start
  proper : ∀ node ∈ before, node.start ≤ node.stop
  ended : ∀ node ∈ before, node.stop ≤ start

theorem Placed.passed {before nodes : List Tree} {node : Tree}
    (placed : Placed source (before.reverse ++ node :: nodes)) : Passed before node.start := by
  obtain ⟨hbefore, -, hbetween⟩ := List.pairwise_append.mp placed.apart
  exact {
    apart := List.pairwise_reverse.mp hbefore
    proper := fun other hmem =>
      placed.proper other (List.mem_append_left _ (List.mem_reverse.mpr hmem))
    ended := fun other hmem =>
      hbetween other (List.mem_reverse.mpr hmem) node List.mem_cons_self }

-- ========================================================= the comments

/-- The comments above an offset begin no later than it. -/
theorem commentsStart_le (source : List Char) {before : List Tree} {start : Nat}
    (passed : Passed before start) :
    commentsStart source start before ≤ start := by
  induction before generalizing start with
  | nil => exact Nat.le_refl _
  | cons node before ih =>
      obtain ⟨hnearest, hapart⟩ := List.pairwise_cons.mp passed.apart
      obtain ⟨hproper, hbefore⟩ := List.forall_mem_cons.mp passed.proper
      unfold commentsStart
      split
      · have hrest := ih ⟨hapart, hbefore, hnearest⟩
        have hended := passed.ended node List.mem_cons_self
        omega
      · exact Nat.le_refl _

/-- Nothing but comments lies between the beginning of the comments and the
offset. -/
theorem le_commentsStart (source : List Char) {before : List Tree} {start : Nat}
    (passed : Passed before start) {node : Tree} (hmem : node ∈ before) (hkind : node.kind ≠ .comment) :
    node.stop ≤ commentsStart source start before := by
  induction before generalizing start with
  | nil => cases hmem
  | cons nearest before ih =>
      obtain ⟨hnearest, hapart⟩ := List.pairwise_cons.mp passed.apart
      obtain ⟨hproper, hbefore⟩ := List.forall_mem_cons.mp passed.proper
      unfold commentsStart
      split
      · next habove =>
          have hcomment := of_decide_eq_true (Bool.and_eq_true_iff.mp habove).1
          rcases List.mem_cons.mp hmem with rfl | hmem
          · exact absurd hcomment hkind
          · exact ih ⟨hapart, hbefore, hnearest⟩ hmem
      · exact passed.ended node hmem

-- ======================================================== the stretches

/-- The stretches are those of the stale declarations. -/
theorem mem_staleSpans {passed nodes : List Tree} {span : Span} :
    span ∈ staleSpans source declared passed nodes
      ↔ ∃ before node after, nodes = before ++ node :: after
          ∧ isStale source declared node = true
          ∧ span = spanOf source (before.reverse ++ passed) node := by
  induction nodes generalizing passed with
  | nil =>
      refine ⟨fun hmem => (List.not_mem_nil hmem).elim, ?_⟩
      rintro ⟨before, node, after, hnodes, -⟩
      cases before <;> cases hnodes
  | cons first nodes ih =>
      -- A stale declaration is the first node, or it comes among the others.
      have hsplit : (∃ before node after, first :: nodes = before ++ node :: after
            ∧ isStale source declared node = true
            ∧ span = spanOf source (before.reverse ++ passed) node)
          ↔ (isStale source declared first = true ∧ span = spanOf source passed first)
            ∨ span ∈ staleSpans source declared (first :: passed) nodes := by
        rw [ih]
        constructor
        · rintro ⟨before, node, after, hnodes, hstale, rfl⟩
          cases before with
          | nil =>
              obtain ⟨rfl, rfl⟩ := List.cons.inj hnodes
              exact .inl ⟨hstale, rfl⟩
          | cons other before =>
              obtain ⟨rfl, rfl⟩ := List.cons.inj hnodes
              refine .inr ⟨before, node, after, rfl, hstale, ?_⟩
              rw [List.reverse_cons, List.append_assoc, List.singleton_append]
        · rintro (⟨hstale, rfl⟩ | ⟨before, node, after, rfl, hstale, rfl⟩)
          · exact ⟨[], first, nodes, rfl, hstale, rfl⟩
          · refine ⟨first :: before, node, after, rfl, hstale, ?_⟩
            rw [List.reverse_cons, List.append_assoc, List.singleton_append]
      rw [hsplit, staleSpans]
      split
      · next hstale => rw [List.mem_cons, and_iff_right hstale]
      · next hfresh => rw [or_iff_right fun hfirst => hfresh hfirst.1]

theorem not_comment_of_isStale {node : Tree} (hstale : isStale source declared node = true) :
    node.kind ≠ .comment := by
  intro hkind
  rw [isStale, hkind] at hstale
  cases hstale

/-- A stretch goes past the end of its declaration. -/
theorem le_stop_spanOf (before : List Tree) {node : Tree} (hwithin : node.stop ≤ source.length) :
    node.stop ≤ (spanOf source before node).stop := by
  have hend := (le_lineEnd hwithin).1
  unfold spanOf
  dsimp only
  split <;> omega

theorem start_spanOf_le (source : List Char) {before : List Tree} {node : Tree}
    (passed : Passed before node.start) : (spanOf source before node).start ≤ node.start :=
  Nat.le_trans lineStart_le (commentsStart_le source passed)

theorem proper_staleSpans {nodes : List Tree} (placed : Placed source nodes) {span : Span}
    (hmem : span ∈ staleSpans source declared [] nodes) : span.start ≤ span.stop := by
  obtain ⟨before, node, after, rfl, -, rfl⟩ := mem_staleSpans.mp hmem
  have placed' : Placed source ((before.reverse ++ []).reverse ++ node :: after) := by
    simpa using placed
  have hstart := start_spanOf_le source placed'.passed
  have hstop := le_stop_spanOf (before.reverse ++ []) (placed.within node (by simp))
  have hproper := placed.proper node (by simp)
  omega

/-- The stretches come in order. -/
theorem pairwise_staleSpans {passed nodes : List Tree}
    (placed : Placed source (passed.reverse ++ nodes)) :
    (staleSpans source declared passed nodes).Pairwise (·.start ≤ ·.start) := by
  induction nodes generalizing passed with
  | nil => exact .nil
  | cons node nodes ih =>
      have placed' : Placed source ((node :: passed).reverse ++ nodes) := by
        rw [List.reverse_cons, List.append_assoc, List.singleton_append]
        exact placed
      rw [staleSpans]
      split
      · next hstale =>
          refine List.pairwise_cons.mpr ⟨fun later hmem => ?_, ih placed'⟩
          obtain ⟨between, other, after, rfl, -, rfl⟩ := mem_staleSpans.mp hmem
          have placed'' : Placed source
              ((between.reverse ++ node :: passed).reverse ++ other :: after) := by
            simpa using placed'
          have hother := placed''.passed
          have hproper := placed.proper node (by simp)
          have hproper' := placed.proper other (by simp)
          have hwithin := placed.within other (by simp)
          -- The later declaration's comments begin after the earlier declaration.
          have hmem' : node ∈ between.reverse ++ node :: passed := by simp
          have hbetween := le_commentsStart source hother hmem'
            (not_comment_of_isStale hstale)
          have hcomments := commentsStart_le source placed.passed
          have hcomments' := commentsStart_le source hother
          exact lineStart_mono (by omega) (by omega)
      · exact ih placed'

-- ============================================================ reaching

/-- A declaration ends on the line on which the comments above a stale one
begin, or it begins on the line on which the stale one ends. -/
def SharesLine (source : List Char) (before : List Tree) (stale declaration : Tree) : Prop :=
  rowOf source declaration.stop = rowOf source (commentsStart source stale.start before)
    ∨ rowOf source declaration.start = rowOf source stale.stop

/-- Every character of a node stays. -/
def Stays (spans : List Span) (node : Tree) : Prop :=
  ∀ i, node.start ≤ i → i < node.stop → held spans i = false

theorem stays_iff {spans : List Span} {node : Tree} :
    Stays spans node ↔ ∀ span ∈ spans, Stays [span] node := by
  have hsingle (span : Span) (i : Nat) : held [span] i = span.holds i := Bool.or_false _
  simp only [Stays, hsingle]
  constructor
  · intro hstays span hmem i hi hlt
    exact Bool.not_eq_true _ ▸ List.any_eq_false.mp (hstays i hi hlt) span hmem
  · intro hstays i hi hlt
    refine List.any_eq_false.mpr fun span hmem => ?_
    rw [hstays span hmem i hi hlt]
    exact Bool.false_ne_true

/-- A node stays when the stretch comes after it or before it. -/
theorem stays_singleton_iff {span : Span} {node : Tree} (hspan : span.start < span.stop)
    (hnode : node.start < node.stop) :
    Stays [span] node ↔ node.stop ≤ span.start ∨ span.stop ≤ node.start := by
  have hholds (i : Nat) : held [span] i = false ↔ ¬ (span.start ≤ i ∧ i < span.stop) := by
    rw [← Span.holds_iff, Bool.not_eq_true]
    exact Eq.congr_left (Bool.or_false _)
  simp only [Stays, hholds]
  constructor
  · intro hstays
    have := hstays (max span.start node.start)
    omega
  · intro happart i hi hlt
    omega

/-- Comments aside, a node ends in the row of its last character. -/
theorem rowOf_stop {node : Tree} (hlies : node.LiesIn source) (hkind : node.kind ≠ .comment) :
    rowOf source (node.stop - 1) = rowOf source node.stop := by
  obtain ⟨c, hc, hvisible⟩ := hlies.last hkind
  have hfeed : c ≠ '\n' := by
    rintro rfl
    cases hvisible
  have hsome := hlies.some
  have hrow := rowOf_succ hc hfeed
  rw [Nat.sub_add_cancel (by omega)] at hrow
  exact hrow.symm

variable {before after : List Tree} {stale declaration : Tree}

/-- A declaration before a stale one stays unless it shares a line with it. -/
theorem stays_before_iff (passed : Passed before stale.start)
    (hstale : stale.LiesIn source) (hlies : declaration.LiesIn source) (hmem : declaration ∈ before)
    (hkind : declaration.kind ≠ .comment) :
    Stays [spanOf source before stale] declaration ↔ ¬ SharesLine source before stale declaration := by
  have hsome := hlies.some
  have hsome' := hstale.some
  have hended := le_commentsStart source passed hmem hkind
  have hcomments := commentsStart_le source passed
  have hstop := le_stop_spanOf before hstale.within
  have hstart : (spanOf source before stale).start
    = lineStart source (commentsStart source stale.start before) := rfl
  have hwithin := hstale.within
  have hline : lineStart source (commentsStart source stale.start before) ≤ declaration.stop - 1
      ↔ rowOf source (declaration.stop - 1)
        = rowOf source (commentsStart source stale.start before) :=
    lineStart_le_iff (by omega) (by omega)
  rw [rowOf_stop hlies hkind, ← hstart] at hline
  -- Beginning where the stale one ends is ending there as well: all is one row.
  have hrows := rowOf_mono source (Nat.le_of_lt hsome)
  have hrows' := rowOf_mono source hended
  have hrows'' := rowOf_mono source (Nat.le_trans hcomments (Nat.le_of_lt hsome'))
  have hbegin := start_spanOf_le source passed
  rw [stays_singleton_iff (by omega) hsome, SharesLine]
  omega

/-- A declaration begins within the stretch of a stale one before it only if it
begins on the line on which that one ends. -/
theorem lt_stop_spanOf_iff (before : List Tree) (hlies : declaration.LiesIn source)
    (hkind : declaration.kind ≠ .comment) (hended : stale.stop ≤ declaration.start) :
    declaration.start < (spanOf source before stale).stop
      ↔ rowOf source stale.stop = rowOf source declaration.start := by
  have hwithin : declaration.start < source.length := Nat.lt_of_lt_of_le hlies.some hlies.within
  rw [← lt_lineEnd_iff hended hwithin]
  unfold spanOf
  dsimp only
  split
  · next hblank =>
      -- The blank line that goes along has no character of the declaration.
      have hother : declaration.start ≠ lineEnd source stale.stop := by
        intro hat
        obtain ⟨c, hc, hvisible⟩ := hlies.first hkind
        rw [List.head?_drop, ← hat, hc] at hblank
        obtain rfl := Option.some.inj hblank
        cases hvisible
      omega
  · exact Iff.rfl

/-- A declaration after a stale one stays unless it shares a line with it. -/
theorem stays_after_iff (passed : Passed before stale.start)
    (hstale : stale.LiesIn source) (hlies : declaration.LiesIn source)
    (hkind : declaration.kind ≠ .comment) (hended : stale.stop ≤ declaration.start) :
    Stays [spanOf source before stale] declaration
      ↔ ¬ SharesLine source before stale declaration := by
  have hsome := hlies.some
  have hsome' := hstale.some
  have hcomments := commentsStart_le source passed
  have hstop := le_stop_spanOf before hstale.within
  have hstart := start_spanOf_le source passed
  have hbegins := lt_stop_spanOf_iff before hlies hkind hended
  -- Ending where the comments begin is beginning there as well: all is one row.
  have hrows := rowOf_mono source (Nat.le_of_lt hsome)
  have hrows' := rowOf_mono source hended
  have hrows'' := rowOf_mono source (Nat.le_trans hcomments (Nat.le_of_lt hsome'))
  rw [stays_singleton_iff (by omega) hsome, SharesLine]
  omega

/-- A stretch takes a declaration's characters exactly when the declaration
shares a line with the stale one. -/
theorem stays_spanOf_iff {nodes : List Tree} (laid : Laid source nodes)
    (hnodes : nodes = before ++ stale :: after) (hmem : declaration ∈ nodes)
    (hkind : declaration.kind ≠ .comment) (hother : declaration ≠ stale) :
    Stays [spanOf source before.reverse stale] declaration
      ↔ ¬ SharesLine source before.reverse stale declaration := by
  subst hnodes
  have hpassed : Passed before.reverse stale.start := by
    have placed := laid.placed
    rw [← List.reverse_reverse before] at placed
    exact placed.passed
  have hstale := laid.lies stale (by simp)
  have hlies := laid.lies declaration hmem
  rcases List.mem_append.mp hmem with hbefore | hrest
  · exact stays_before_iff hpassed hstale hlies (List.mem_reverse.mpr hbefore) hkind
  · rcases List.mem_cons.mp hrest with rfl | hafter
    · exact absurd rfl hother
    · have hlater := laid.sublist (List.sublist_append_right before (stale :: after))
      exact stays_after_iff hpassed hstale hlies hkind
        (List.rel_of_pairwise_cons hlater.apart hafter)

end Assay.TestFile
