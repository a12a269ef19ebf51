/-
Saving a test again. The second save is meant to find the first one's work and
to put the same text in its place, and whether it does depends on what it takes
out: all of the saved test, and nothing else. The tree settles it for a file
that parses, and the braces for one that does not. `patch_again_iff` has the
conditions. They fail for a test that ends in a comment of its own, and hold for
every plain test that is read in the saved file as it is for itself (`PlainTest`,
`ReadApart`).
-/
import Assay.Proofs.TestFile.Braces
import Assay.Proofs.TestFile.Plain
import Assay.Proofs.TestFile.Unrelated

namespace Assay.TestFile

open Syntax Text

variable {existing : List Char} {package : String} {test : GeneratedTest}

-- ============================================================ the front

/-- What a save leaves before the test. -/
def front (existing : List Char) (package : String) (test : GeneratedTest) : List Char :=
  if allBlank (withoutStale existing test) then "package ".toList ++ package.toList
  else trimEnd (withoutStale existing test)

/-- What a save appends. -/
def appended (test : GeneratedTest) : List Char := '\n' :: '\n' :: (trim test.source ++ ['\n'])

theorem patch_eq (existing : List Char) (package : String) (test : GeneratedTest) :
    patch existing package test = front existing package test ++ appended test := by
  rw [appended, patch, List.append_assoc, List.append_assoc]
  rfl

theorem allBlank_front : allBlank (front existing package test) = false := by
  unfold front
  split
  · rfl
  · next hvisible =>
      rwa [← Bool.not_eq_true, ← trimEnd_eq_nil_iff, trimEnd_trimEnd, trimEnd_eq_nil_iff]

/-- No blanks end what comes before the test, when none end the package's name. -/
theorem trimEnd_front (hpackage : ∃ c ∈ package.toList.getLast?, isBlank c = false) :
    trimEnd (front existing package test) = front existing package test := by
  unfold front
  split
  · obtain ⟨c, hc, hvisible⟩ := hpackage
    refine trimEnd_eq_self fun d hd => ?_
    have hsome : package.toList ≠ [] := by
      intro hempty
      rw [hempty] at hc
      cases hc
    rw [List.getLast?_append_of_ne_nil _ hsome, hc] at hd
    exact Option.some.inj hd ▸ hvisible
  · exact trimEnd_trimEnd _

/-- The second save makes no difference when it finds the same before the test. -/
theorem patch_again_iff_front :
    patch (patch existing package test) package test = patch existing package test
      ↔ front (patch existing package test) package test = front existing package test := by
  rw [patch_eq (patch existing package test), patch_eq existing]
  exact List.append_left_inj (appended test)

/-- While the front stays, nothing visible may stay of what comes after it. -/
theorem front_again_iff {saved rest : List Char}
    (hrest : trimEnd (withoutStale saved test) = trimEnd (front existing package test ++ rest)) :
    front saved package test = front existing package test
      ↔ trimEnd (front existing package test) = front existing package test
        ∧ allBlank rest = true := by
  have hvisible : ¬ allBlank (withoutStale saved test) = true := by
    rw [← trimEnd_eq_nil_iff, hrest, trimEnd_eq_nil_iff, allBlank_append, allBlank_front]
    exact Bool.false_ne_true
  rw [front, if_neg hvisible, hrest, trimEnd_append_eq_iff]

-- ============================================================= the tree

/-- Stretches cover the visible characters of a text from an offset on. -/
def Covered (spans : List Span) (first : Nat) (text : List Char) : Prop :=
  ∀ i c, first ≤ i → text[i]? = some c → isBlank c = false → held spans i = true

/-- What holds of all characters of a text holds of the first one, and of the
others one further on. -/
theorem forall_getElem?_cons {fits : Nat → Char → Prop} {c : Char} {text : List Char} :
    (∀ i d, (c :: text)[i]? = some d → fits i d)
      ↔ fits 0 c ∧ ∀ i d, text[i]? = some d → fits (i + 1) d := by
  refine ⟨fun hall => ⟨hall 0 c rfl, fun i d hd => hall (i + 1) d hd⟩, ?_⟩
  rintro ⟨hfirst, hothers⟩ i d hd
  cases i with
  | zero =>
      obtain rfl := Option.some.inj hd
      exact hfirst
  | succ i => exact hothers i d hd

theorem allBlank_outside_iff {spans : List Span} {offset : Nat} {text : List Char} :
    allBlank (outside spans offset text) = true
      ↔ ∀ i c, text[i]? = some c → isBlank c = false → held spans (i + offset) = true := by
  induction text generalizing offset with
  | nil => simp [outside, allBlank]
  | cons c text ih =>
      rw [forall_getElem?_cons, Nat.zero_add, outside]
      simp only [Nat.add_assoc, Nat.add_comm 1 offset, ← ih]
      split
      · next hheld => exact (and_iff_right fun _ => hheld).symm
      · next hfree =>
          rw [allBlank, List.all_cons, Bool.and_eq_true]
          refine and_congr_left' ⟨fun hblank hvisible => ?_, fun hcovered => ?_⟩
          · rw [hblank] at hvisible
            cases hvisible
          · by_contra hvisible
            exact hfree (hcovered (Bool.not_eq_true _ ▸ hvisible))

/-- Stretches that begin after the front leave it alone. -/
theorem outside_patch {spans : List Span}
    (hfront : ∀ span ∈ spans, (front existing package test).length ≤ span.start) :
    outside spans 0 (patch existing package test)
      = front existing package test
        ++ outside spans (front existing package test).length (appended test) := by
  rw [patch_eq, outside_append_of_starts (by simpa using hfront), Nat.zero_add]

/-- While no stretch begins before the test, saving it again makes no difference
exactly when stretches cover it. -/
theorem patch_again_iff_covered {tree : Tree}
    (hparse : parse? (patch existing package test) = some tree)
    (hfront : ∀ span ∈ staleSpans (patch existing package test) (.ofTest test) []
      tree.namedChildren, (front existing package test).length ≤ span.start) :
    patch (patch existing package test) package test = patch existing package test
      ↔ trimEnd (front existing package test) = front existing package test
        ∧ Covered (staleSpans (patch existing package test) (.ofTest test) [] tree.namedChildren)
          (front existing package test).length (patch existing package test) := by
  have hrest := trimEnd_withoutStale test hparse
  rw [outside_patch hfront] at hrest
  rw [patch_again_iff_front, front_again_iff hrest, allBlank_outside_iff]
  refine and_congr_right fun _ => ⟨fun hcovered i c hi hc => ?_, fun hcovered i c hc => ?_⟩
  · rw [patch_eq, List.getElem?_append_right hi] at hc
    have hheld := hcovered (i - (front existing package test).length) c hc
    rwa [Nat.sub_add_cancel hi] at hheld
  · refine hcovered _ c (Nat.le_add_left _ i) ?_
    rw [patch_eq, List.getElem?_append_right (Nat.le_add_left _ i), Nat.add_sub_cancel]
    exact hc

-- =========================================================== the braces

/-- The rest of a file that does not parse begins the test nowhere. -/
theorem headless_front (hparse : parse? existing = none) (hline : '\n' ∉ package.toList) :
    Headless test.name (front existing package test ++ ['\n']) := by
  unfold front
  split
  · -- A package clause is one line, and no header.
    intro line hmem
    rw [linesKept_line (List.not_mem_append (by decide) hline)] at hmem
    obtain rfl := List.mem_singleton.mp hmem
    rfl
  · next hvisible =>
      have hbase : withoutStale existing test = withoutTest test.name existing := by
        unfold withoutStale at hvisible ⊢
        split
        · next hblank =>
            rw [if_pos hblank] at hvisible
            exact absurd rfl hvisible
        · rw [hparse]
      obtain ⟨gap, hgap, htext⟩ := exists_trimEnd (withoutStale existing test)
      refine Headless.feed hgap ?_
      rw [← htext, hbase]
      exact headless_withoutTest test.name existing

/-- While no line before the test begins it, saving it again makes no difference
exactly when its braces take all of it out. -/
theorem patch_again_iff_withoutTest (hparse : parse? (patch existing package test) = none)
    (hfront : Headless test.name (front existing package test ++ ['\n'])) :
    patch (patch existing package test) package test = patch existing package test
      ↔ trimEnd (front existing package test) = front existing package test
        ∧ allBlank (withoutTest test.name (trim test.source ++ ['\n'])) = true := by
  have hvisible : ¬ allBlank (patch existing package test) = true := by
    rw [patch_eq, allBlank_append, allBlank_front]
    exact Bool.false_ne_true
  have hfeed : Headless test.name ([] ++ ['\n']) := by
    intro line hmem
    obtain rfl := List.mem_singleton.mp hmem
    rfl
  have hbase : withoutStale (patch existing package test) test
      = front existing package test
        ++ '\n' :: '\n' :: withoutTest test.name (trim test.source ++ ['\n']) := by
    rw [withoutStale, if_neg hvisible, hparse, patch_eq, appended, withoutTest_append hfront]
    exact congrArg (fun rest => _ ++ '\n' :: rest) (withoutTest_append hfeed _)
  rw [patch_again_iff_front, front_again_iff (congrArg trimEnd hbase)]
  exact Iff.rfl

-- ========================================================= saving again

/-- The second save takes nothing out before the test. -/
def LeavesFront (existing : List Char) (package : String) (test : GeneratedTest) : Prop :=
  match parse? (patch existing package test) with
  | some tree =>
    ∀ span ∈ staleSpans (patch existing package test) (.ofTest test) [] tree.namedChildren,
      (front existing package test).length ≤ span.start
  | none => Headless test.name (front existing package test ++ ['\n'])

/-- The second save takes out all of the saved test. -/
def TakesTest (existing : List Char) (package : String) (test : GeneratedTest) : Prop :=
  match parse? (patch existing package test) with
  | some tree =>
    Covered (staleSpans (patch existing package test) (.ofTest test) [] tree.namedChildren)
      (front existing package test).length (patch existing package test)
  | none => allBlank (withoutTest test.name (trim test.source ++ ['\n'])) = true

theorem patch_again_iff_takesTest (leaves : LeavesFront existing package test) :
    patch (patch existing package test) package test = patch existing package test
      ↔ trimEnd (front existing package test) = front existing package test
        ∧ TakesTest existing package test := by
  unfold LeavesFront at leaves
  unfold TakesTest
  split at leaves
  · next hparse => exact patch_again_iff_covered hparse leaves
  · next hparse => exact patch_again_iff_withoutTest hparse leaves

-- ========================================================== plain tests

/-- Where a test's own text begins when the test is read for itself. -/
def testStart (test : GeneratedTest) : Nat :=
  (clauseLine ++ test.source.takeWhile isBlank).length

/-- What a test declares, in order, with the comments. -/
def testNodes (test : GeneratedTest) : List Tree := (topNodes (clauseLine ++ test.source)).tail

theorem mem_of_mem_testNodes {tree node : Tree}
    (hparse : parse? (clauseLine ++ test.source) = some tree) (hmem : node ∈ testNodes test) :
    node ∈ tree.namedChildren := by
  rw [← topNodes_eq hparse]
  exact List.mem_of_mem_tail hmem

/-- A test that parses, and of which everything at the top level is a function, a
method, a single specification or a comment directly above the next of these. No
line with something visible has nothing of these. -/
structure PlainTest (test : GeneratedTest) : Prop where
  parses : (parse? (clauseLine ++ test.source)).isSome = true
  plain : isPlain (clauseLine ++ test.source)
    (declaresAlone (clauseLine ++ test.source) test.name) (testNodes test) = true
  filled : ∀ place ∈ (trim test.source).zipIdx, isBlank place.1 = false →
    ∃ node ∈ testNodes test, Meets (clauseLine ++ test.source)
      (rowOf (clauseLine ++ test.source) (testStart test + place.2)) node

/-- Nodes of a saved file that come from what was there before: the package clause,
and declarations and comments that did not make way. -/
def Older (existing : List Char) (package : String) (test : GeneratedTest) (node : Tree) : Prop :=
  node.kind = .packageClause ∨ ∃ kept ∈ topNodes existing,
    isStale existing (.ofTest test) kept = false
      ∧ Alike existing (patch existing package test) kept node

instance (existing : List Char) (package : String) (test : GeneratedTest) (node : Tree) :
    Decidable (Older existing package test node) :=
  inferInstanceAs (Decidable (_ ∨ ∃ kept ∈ topNodes existing, _ ∧ _))

/-- The saved file is read as its two parts are read apart: up to the test as what was
left of the file, and in the test as the test for itself. -/
structure ReadApart (existing : List Char) (package : String) (test : GeneratedTest)
    (before own : List Tree) : Prop where
  parses : (parse? (patch existing package test)).isSome = true
  nodes : topNodes (patch existing package test) = before ++ own
  ended : ∀ node ∈ before, node.stop ≤ (front existing package test).length
  older : ∀ node ∈ before, Older existing package test node
  moved : List.Forall₂ (Relocated (clauseLine ++ test.source) (patch existing package test)
      (testStart test) ((front existing package test).length + 2) (trim test.source).length)
    (testNodes test) own

/-- Both texts hold the test's own. -/
theorem take_trim_again (existing : List Char) (package : String) (test : GeneratedTest) :
    ((clauseLine ++ test.source).drop (testStart test)).take (trim test.source).length
      = ((patch existing package test).drop ((front existing package test).length + 2)).take
          (trim test.source).length := by
  obtain ⟨gap, -, hgap⟩ := exists_trimEnd (trimStart test.source)
  have hsource : clauseLine ++ test.source
      = (clauseLine ++ test.source.takeWhile isBlank) ++ (trim test.source ++ gap) := by
    rw [trim, ← hgap, trimStart, List.append_assoc, List.takeWhile_append_dropWhile]
  have hsaved : patch existing package test
      = (front existing package test ++ ['\n', '\n']) ++ (trim test.source ++ ['\n']) := by
    rw [patch_eq, appended, List.append_assoc]
    rfl
  have hlength : (front existing package test ++ ['\n', '\n']).length
      = (front existing package test).length + 2 := List.length_append
  rw [hsource, testStart, List.drop_left, List.take_left, hsaved, ← hlength, List.drop_left,
    List.take_left]

/-- What is visible after the front is the test's. -/
theorem exists_of_visible {i : Nat} {c : Char} (hi : (front existing package test).length ≤ i)
    (hc : (patch existing package test)[i]? = some c) (hvisible : isBlank c = false) :
    ∃ k, i = (front existing package test).length + 2 + k ∧ (trim test.source)[k]? = some c := by
  have hfeed : c ≠ '\n' := by
    rintro rfl
    cases hvisible
  obtain ⟨k, rfl⟩ := Nat.exists_eq_add_of_le hi
  rw [patch_eq, List.getElem?_append_right hi, Nat.add_sub_cancel_left, appended] at hc
  match k with
  | 0 => exact absurd (Option.some.inj hc).symm hfeed
  | 1 => exact absurd (Option.some.inj hc).symm hfeed
  | k + 2 =>
      rw [List.getElem?_cons_succ, List.getElem?_cons_succ] at hc
      refine ⟨k, by omega, ?_⟩
      by_cases hown : k < (trim test.source).length
      · rwa [List.getElem?_append_left hown] at hc
      · rw [List.getElem?_append_right (Nat.le_of_not_lt hown)] at hc
        exact absurd (List.mem_singleton.mp (List.mem_of_getElem? hc)) hfeed

/-- The test's text begins a line. -/
theorem lineStart_patch (existing : List Char) (package : String) (test : GeneratedTest) :
    lineStart (patch existing package test) ((front existing package test).length + 2)
      = (front existing package test).length + 2 := by
  have hfeed := lineStart_feed (front existing package test ++ ['\n']) (trim test.source ++ ['\n'])
  rw [List.append_assoc, List.length_append] at hfeed
  rw [patch_eq]
  exact hfeed

/-- Two rows part a test from what comes before it. -/
theorem rowOf_patch (existing : List Char) (package : String) (test : GeneratedTest) :
    rowOf (patch existing package test) ((front existing package test).length + 2)
      = rowOf (patch existing package test) (front existing package test).length + 2 := by
  rw [rowOf_add, patch_eq, List.drop_left, appended]
  rfl

/-- The comments above something that begins after an empty line do not reach over
the line. -/
theorem le_commentsStart_of_gap {source : List Char} {last first start : Nat} {before : List Tree}
    (hgap : rowOf source last + 1 < rowOf source first) (hstart : first ≤ start)
    (hbefore : ∀ node ∈ before, node.stop ≤ last ∨ first ≤ node.start) :
    first ≤ commentsStart source start before := by
  induction before generalizing start with
  | nil => exact hstart
  | cons node before ih =>
      obtain ⟨hnode, hbefore⟩ := List.forall_mem_cons.mp hbefore
      unfold commentsStart
      split
      · next habove =>
          have hnext := eq_of_beq (Bool.and_eq_true_iff.mp habove).2
          obtain hfar | hnear := hnode
          · have hrows := rowOf_mono source hfar
            have hrows' := rowOf_mono source hstart
            omega
          · exact ih hnear hbefore
      · exact hstart

theorem Older.isStale_eq {node : Tree} (older : Older existing package test node) :
    isStale (patch existing package test) (.ofTest test) node = false := by
  obtain hkind | ⟨kept, -, hkept, alike⟩ := older
  · rw [isStale, hkind]
  · rw [alike.isStale_eq, hkept]

theorem exists_of_forall₂ {α β : Type} {relates : α → β → Prop} {items : List α}
    {others : List β} (related : List.Forall₂ relates items others) :
    ∀ item ∈ items, ∃ other ∈ others, relates item other := by
  induction related with
  | nil => exact fun item hmem => absurd hmem List.not_mem_nil
  | cons hhead _ ih =>
      refine List.forall_mem_cons.mpr ⟨⟨_, List.mem_cons_self, hhead⟩, fun item hmem => ?_⟩
      obtain ⟨other, hother, hrelates⟩ := ih item hmem
      exact ⟨other, List.mem_cons_of_mem _ hother, hrelates⟩

section apart

variable {before own : List Tree} (apart : ReadApart existing package test before own)

include apart

theorem ReadApart.exists_parse : ∃ tree, parse? (patch existing package test) = some tree
    ∧ tree.namedChildren = before ++ own := by
  obtain ⟨tree, hparse⟩ := Option.isSome_iff_exists.mp apart.parses
  exact ⟨tree, hparse, topNodes_eq hparse ▸ apart.nodes⟩

/-- The test's nodes begin after the empty line. -/
theorem ReadApart.le_start : ∀ node ∈ own,
    (front existing package test).length + 2 ≤ node.start := by
  intro node hmem
  obtain ⟨_, -, moved⟩ := exists_of_forall₂ apart.moved.flip node hmem
  have hbegins := moved.begins
  have hstart := moved.start
  omega

/-- What was there before the test does not make way for it again. -/
theorem ReadApart.leavesFront : LeavesFront existing package test := by
  obtain ⟨tree, hparse, hnodes⟩ := apart.exists_parse
  have placed := (laid_of_parse? hparse).placed
  unfold LeavesFront
  simp only [hparse, hnodes] at placed ⊢
  intro span hmem
  obtain ⟨passed, stale, after, hsplit, hstale, rfl⟩ := mem_staleSpans.mp hmem
  have hstale' : stale ∈ before ++ own := by simp [hsplit]
  have hown : stale ∈ own := by
    refine (List.mem_append.mp hstale').resolve_left fun hbefore => ?_
    rw [(apart.older stale hbefore).isStale_eq] at hstale
    cases hstale
  have hsides : ∀ node ∈ passed.reverse, node.stop ≤ (front existing package test).length
      ∨ (front existing package test).length + 2 ≤ node.start := by
    intro node hnode
    have hnode' : node ∈ before ++ own := by
      rw [hsplit]
      exact List.mem_append_left _ (List.mem_reverse.mp hnode)
    exact (List.mem_append.mp hnode').imp (apart.ended node) (apart.le_start node)
  have hrows := rowOf_patch existing package test
  have hline := lineStart_patch existing package test
  have hgap : rowOf (patch existing package test) (front existing package test).length + 1
      < rowOf (patch existing package test) ((front existing package test).length + 2) := by omega
  have hcomments := le_commentsStart_of_gap hgap (apart.le_start stale hown) hsides
  have hproper := placed.proper stale hstale'
  have hwithin := placed.within stale hstale'
  rw [hsplit, ← List.reverse_reverse passed] at placed
  have hupto := commentsStart_le (patch existing package test) placed.passed
  rw [List.append_nil]
  exact Nat.le_trans (by omega) (lineStart_mono hcomments (by omega))

/-- Everything in a plain test makes way for the test. -/
theorem ReadApart.isPlain_own (plain : PlainTest test) :
    isPlain (patch existing package test) (isStale (patch existing package test) (.ofTest test)) own
      = true := by
  obtain ⟨tree, hparse⟩ := Option.isSome_iff_exists.mp plain.parses
  have hproper : ∀ node ∈ testNodes test, node.start ≤ node.stop := fun node hmem =>
    (laid_of_parse? hparse).placed.proper node (mem_of_mem_testNodes hparse hmem)
  refine isPlain_relocated plain.plain (take_trim_again existing package test) apart.moved
    hproper fun node hmem node' alike halone => ?_
  rw [alike.isStale_eq]
  exact isStale_of_declaresAlone hparse (mem_of_mem_testNodes hparse hmem) halone

/-- A plain test is taken out as a whole. -/
theorem ReadApart.takesTest (plain : PlainTest test) : TakesTest existing package test := by
  obtain ⟨tree, hparse, hnodes⟩ := apart.exists_parse
  obtain ⟨wrapped, hwrapped⟩ := Option.isSome_iff_exists.mp plain.parses
  have placed := (laid_of_parse? hparse).placed
  unfold TakesTest
  simp only [hparse, hnodes] at placed ⊢
  rw [← List.reverse_reverse before] at placed ⊢
  have hgoes := (goes_of_plain placed (apart.isPlain_own plain)).2
  intro i c hi hc hvisible
  have hlength := (List.getElem?_eq_some_iff.mp hc).1
  refine (held_staleSpans_iff placed hlength).mpr ?_
  obtain ⟨k, rfl, hk⟩ := exists_of_visible hi hc hvisible
  obtain ⟨node, hmem, hmeets⟩ :=
    plain.filled (c, k) (List.mk_mem_zipIdx_iff_getElem?.mpr hk) hvisible
  obtain ⟨node', hmem', moved⟩ := exists_of_forall₂ apart.moved node hmem
  have hproper : node.start ≤ node.stop :=
    (laid_of_parse? hwrapped).placed.proper node (mem_of_mem_testNodes hwrapped hmem)
  have hle := Nat.le_of_lt (List.getElem?_eq_some_iff.mp hk).1
  exact hgoes node' hmem' _
    (moved.meets (take_trim_again existing package test) hproper hle hmeets)

end apart

/-- When saving a test twice is saving it once: when the second save takes out
all of the test and nothing before it, and no blanks end what comes before. If
it takes out something before the test as well, what is left has to read the
same by accident. Where neither text parses, it takes out nothing before the
test. Where the test is plain and the saved file is read as its parts, it takes
out the test and nothing else, so that saving it twice is saving it once. -/
theorem patch_again_iff (existing : List Char) (package : String) (test : GeneratedTest) :
    (patch (patch existing package test) package test = patch existing package test
        ↔ (LeavesFront existing package test ∧ TakesTest existing package test
            ∧ trimEnd (front existing package test) = front existing package test)
          ∨ (¬ LeavesFront existing package test
            ∧ front (patch existing package test) package test = front existing package test))
      ∧ (parse? existing = none → parse? (patch existing package test) = none →
          '\n' ∉ package.toList → LeavesFront existing package test)
      ∧ ∀ before own, PlainTest test → ReadApart existing package test before own →
          LeavesFront existing package test ∧ TakesTest existing package test
            ∧ ((∃ c ∈ package.toList.getLast?, isBlank c = false) →
              patch (patch existing package test) package test = patch existing package test) := by
  refine ⟨?_, fun hparse hsaved hline => ?_, fun before own plain apart => ?_⟩
  · by_cases leaves : LeavesFront existing package test
    · rw [patch_again_iff_takesTest leaves, and_comm, and_iff_right leaves,
        or_iff_left fun h => h.1 leaves]
    · rw [patch_again_iff_front, and_iff_right leaves, or_iff_right fun h => leaves h.1]
  · rw [LeavesFront, hsaved]
    exact headless_front hparse hline
  · have leaves := apart.leavesFront
    have takes := apart.takesTest plain
    exact ⟨leaves, takes, fun hpackage =>
      (patch_again_iff_takesTest leaves).mpr ⟨trimEnd_front hpackage, takes⟩⟩

/-- A file with a group, and with an older version of a test under a comment. -/
def groupedFile : List Char :=
  ("package calc\n\nvar (\n\tone = 1\n\ttwo = 2\n)\n\n"
    ++ "// Adds.\nfunc TestAdd(t *testing.T) \x7b\x7d\n").toList

/-- A test with a type and a method of its own, both under comments. -/
def boxedTest : GeneratedTest :=
  ⟨"TestAdd", ("// A box,\n// empty.\ntype box int\n// Opens.\nfunc (b box) open() \x7b\x7d\n\n"
    ++ "func TestAdd(t *testing.T) \x7b\x7d").toList⟩

theorem patch_again_iff_boxedTest :
    PlainTest boxedTest
      ∧ ReadApart groupedFile "calc" boxedTest
          ((topNodes (patch groupedFile "calc" boxedTest)).take 2)
          ((topNodes (patch groupedFile "calc" boxedTest)).drop 2)
      ∧ patch (patch groupedFile "calc" boxedTest) "calc" boxedTest
        = patch groupedFile "calc" boxedTest := by
  have plain : PlainTest boxedTest := by
    suffices hall : _ ∧ _ ∧ _ from ⟨hall.1, hall.2.1, hall.2.2⟩
    decide +kernel
  have apart : ReadApart groupedFile "calc" boxedTest
      ((topNodes (patch groupedFile "calc" boxedTest)).take 2)
      ((topNodes (patch groupedFile "calc" boxedTest)).drop 2) := by
    suffices hall : _ ∧ _ ∧ _ ∧ _ from
      ⟨hall.1, (List.take_append_drop 2 _).symm, hall.2.1, hall.2.2.1, hall.2.2.2⟩
    decide +kernel
  exact ⟨plain, apart, ((patch_again_iff groupedFile "calc" boxedTest).2.2 _ _ plain apart).2.2
    ⟨'c', rfl, rfl⟩⟩

/-- A test with a comment of its own at the end. -/
def commentedTest : GeneratedTest :=
  ⟨"TestAdd", "func TestAdd(t *testing.T) \x7b\x7d\n\n// end of the test".toList⟩

/-- The comment belongs to no declaration, so the second save keeps it and
appends it once more. -/
theorem patch_again_repeats_comment :
    GeneratedTest.ofAnswer commentedTest.source = .ok commentedTest
      ∧ patch (patch [] "calc" commentedTest) "calc" commentedTest
        ≠ patch [] "calc" commentedTest := by
  decide +kernel

end Assay.TestFile
