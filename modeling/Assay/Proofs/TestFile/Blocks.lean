/-
Counting braces takes out whole blocks. A block begins with a line that begins
the test, and it ends with the first line at whose end a brace has opened and no
more have opened than closed, or with the text if there is no such line; all
other lines stay (`Parted`). The count is carried from line to line, but it comes
to that of the lines taken together, so what is a block can be told from its
lines alone.
-/
import Assay.Proofs.TestFile.Braces
import Mathlib.Data.Nat.Find

namespace Assay.TestFile

open Text

variable {name : String} {line seen text : List Char}
  {lines left block : List (List Char)}

-- ============================================================= the count

/-- A brace has opened, and no more have opened than closed. -/
def Balanced (text : List Char) : Prop :=
  '\x7b' ∈ text ∧ text.count '\x7b' ≤ text.count '\x7d'

instance (text : List Char) : Decidable (Balanced text) :=
  inferInstanceAs (Decidable ('\x7b' ∈ text ∧ text.count '\x7b' ≤ text.count '\x7d'))

/-- Nothing of a block has been counted yet. -/
def Block.start : Block := ⟨0, false⟩

namespace Block

theorem count_append (counted : Block) (first more : List Char) :
    (counted.count first).count more = counted.count (first ++ more) :=
  List.foldl_append.symm

theorem count_eq (counted : Block) (text : List Char) : counted.count text
    = ⟨counted.depth + text.count '\x7b' - text.count '\x7d',
      counted.opened || decide ('\x7b' ∈ text)⟩ := by
  induction text generalizing counted with
  | nil => simp [count]
  | cons c text ih =>
      rw [show c :: text = [c] ++ text from rfl, ← count_append, ih]
      by_cases hopen : c = '\x7b'
      · subst hopen
        simp [count]
        omega
      · by_cases hclose : c = '\x7d'
        · subst hclose
          simp [count]
          omega
        · simp [count, hopen, hclose, Ne.symm hopen]

/-- A block is over when its lines are balanced. -/
theorem isClosed_count_start : (start.count text).isClosed = true ↔ Balanced text := by
  rw [count_eq, isClosed, Bool.and_eq_true, decide_eq_true_eq, Balanced, start, Bool.false_or,
    decide_eq_true_eq]
  dsimp only
  refine and_congr_right fun _ => ?_
  omega

end Block

-- ============================================================ the blocks

/-- The lines of a test, from the one that begins it to the first at whose end
they are balanced. -/
structure Whole (name : String) (block : List (List Char)) : Prop where
  header : ∃ line ∈ block.head?, isHeader name line = true
  closes : Balanced block.flatten
  first : ∀ fewer, fewer <+: block → Balanced fewer.flatten → fewer = block

/-- Lines from the one that begins a test on, at no end of which they are
balanced. -/
structure Unclosed (name : String) (block : List (List Char)) : Prop where
  header : ∃ line ∈ block.head?, isHeader name line = true
  never : ∀ fewer, fewer <+: block → ¬ Balanced fewer.flatten

/-- What is left of the lines of a text without the blocks of a test. -/
inductive Parted (name : String) : (lines left : List (List Char)) → Prop where
  | done : Parted name [] []
  | keep {line : List Char} {lines left : List (List Char)}
      (hline : isHeader name line = false) (parted : Parted name lines left) :
      Parted name (line :: lines) (line :: left)
  | drop {block lines left : List (List Char)} (whole : Whole name block)
      (parted : Parted name lines left) : Parted name (block ++ lines) left
  | dropRest {block : List (List Char)} (unclosed : Unclosed name block) : Parted name block []

theorem not_balanced_nil : ¬ Balanced [] := fun hbalanced => List.not_mem_nil hbalanced.1

/-- The lines from a header on begin with a whole block, or they make up one that
is never closed. -/
theorem whole_or_unclosed (hheader : isHeader name line = true) (lines : List (List Char)) :
    (∃ block rest, line :: lines = block ++ rest ∧ Whole name block)
      ∨ Unclosed name (line :: lines) := by
  by_cases hcloses : ∃ n, Balanced ((line :: lines).take n).flatten
  · have hfirst := Nat.find_spec hcloses
    have hearlier := fun n => Nat.find_min (H := hcloses) (m := n)
    generalize Nat.find hcloses = n at hfirst hearlier
    refine .inl ⟨_, _, (List.take_append_drop n _).symm, ?_, hfirst, ?_⟩
    · cases n with
      | zero => exact absurd hfirst not_balanced_nil
      | succ n => exact ⟨line, rfl, hheader⟩
    · intro fewer hfewer hbalanced
      -- A shorter stretch from the header on would have been found before.
      have htake := List.prefix_iff_eq_take.mp hfewer
      rw [List.take_take, Nat.min_eq_left] at htake
      · by_contra hother
        have hshort : fewer.length < n := by
          refine Nat.lt_of_not_le fun hlong => hother (hfewer.eq_of_length_le ?_)
          exact Nat.le_trans (List.length_take_le n _) hlong
        exact hearlier _ hshort (htake ▸ hbalanced)
      · exact Nat.le_trans hfewer.length_le (List.length_take_le n _)
  · refine .inr ⟨⟨line, rfl, hheader⟩, fun fewer hfewer hbalanced => hcloses ⟨fewer.length, ?_⟩⟩
    rwa [← List.prefix_iff_eq_take.mp hfewer]

-- ============================================================== the pass

/-- Inside a block, a line goes, and the block with it when that closes it. -/
theorem keptLines_inside (seen line : List Char) (lines : List (List Char)) :
    keptLines name (some (Block.start.count seen)) (line :: lines)
      = if (Block.start.count (seen ++ line)).isClosed then keptLines name none lines
        else keptLines name (some (Block.start.count (seen ++ line))) lines := by
  rw [keptLines, Block.count_append]
  split <;> rfl

/-- A line that begins the test begins a block. -/
theorem keptLines_header (hheader : isHeader name line = true) (lines : List (List Char)) :
    keptLines name none (line :: lines)
      = keptLines name (some (Block.start.count [])) (line :: lines) := by
  unfold keptLines
  rw [hheader]
  rfl

/-- The rest of a block goes, and what comes after it is looked at afresh. -/
theorem keptLines_closing (hsome : block ≠ []) (hcloses : Balanced (seen ++ block.flatten))
    (hfirst : ∀ fewer, fewer ≠ [] → fewer <+: block → Balanced (seen ++ fewer.flatten) →
      fewer = block) (lines : List (List Char)) :
    keptLines name (some (Block.start.count seen)) (block ++ lines)
      = keptLines name none lines := by
  induction block generalizing seen with
  | nil => exact absurd rfl hsome
  | cons line block ih =>
      rw [List.cons_append, keptLines_inside]
      split
      · next hclosed =>
          have hbalanced : Balanced (seen ++ [line].flatten) := by
            rw [List.flatten_singleton]
            exact Block.isClosed_count_start.mp hclosed
          have honly := hfirst [line] (List.cons_ne_nil _ _)
            (List.prefix_iff_eq_take.mpr rfl) hbalanced
          rw [← (List.cons.inj honly).2, List.nil_append]
      · next hopen =>
          have hrest : block ≠ [] := by
            rintro rfl
            rw [List.flatten_singleton] at hcloses
            exact hopen (Block.isClosed_count_start.mpr hcloses)
          refine ih hrest ?_ fun fewer hsome hfewer hbalanced => ?_
          · rwa [List.append_assoc, ← List.flatten_cons]
          · rw [List.append_assoc, ← List.flatten_cons] at hbalanced
            have hwhole := hfirst (line :: fewer) (List.cons_ne_nil _ _)
              ((List.cons_prefix_cons).mpr ⟨rfl, hfewer⟩) hbalanced
            exact (List.cons.inj hwhole).2

/-- While a block is not closed, all lines go. -/
theorem keptLines_open (hnever : ∀ fewer, fewer ≠ [] → fewer <+: block →
    ¬ Balanced (seen ++ fewer.flatten)) :
    keptLines name (some (Block.start.count seen)) block = [] := by
  induction block generalizing seen with
  | nil => rfl
  | cons line block ih =>
      rw [keptLines_inside, if_neg, ih]
      · intro fewer _ hfewer
        rw [List.append_assoc, ← List.flatten_cons]
        exact hnever _ (List.cons_ne_nil _ _) ((List.cons_prefix_cons).mpr ⟨rfl, hfewer⟩)
      · intro hclosed
        refine hnever [line] (List.cons_ne_nil _ _) (List.prefix_iff_eq_take.mpr rfl) ?_
        rw [List.flatten_singleton]
        exact Block.isClosed_count_start.mp hclosed

theorem Whole.keptLines_append (whole : Whole name block) (lines : List (List Char)) :
    keptLines name none (block ++ lines) = keptLines name none lines := by
  obtain ⟨⟨line, hhead, hheader⟩, hcloses, hfirst⟩ := whole
  obtain ⟨rest, rfl⟩ := List.head?_eq_some_iff.mp hhead
  rw [List.cons_append, keptLines_header hheader, ← List.cons_append]
  exact keptLines_closing (List.cons_ne_nil _ _) hcloses (fun fewer _ => hfirst fewer) lines

theorem Unclosed.keptLines_eq_nil (unclosed : Unclosed name block) :
    keptLines name none block = [] := by
  obtain ⟨⟨line, hhead, hheader⟩, hnever⟩ := unclosed
  obtain ⟨rest, rfl⟩ := List.head?_eq_some_iff.mp hhead
  rw [keptLines_header hheader]
  exact keptLines_open fun fewer _ => hnever fewer

-- ============================================================== the text

/-- The lines that are kept are those outside of blocks. -/
theorem parted_keptLines (lines : List (List Char)) :
    Parted name lines (keptLines name none lines) := by
  induction hlength : lines.length using Nat.strongRecOn generalizing lines with
  | ind length ih =>
      cases lines with
      | nil => exact .done
      | cons line lines =>
          cases hheader : isHeader name line with
          | false =>
              have hkept : keptLines name none (line :: lines)
                  = line :: keptLines name none lines := by
                rw [keptLines, hheader]
                rfl
              rw [hkept]
              exact .keep hheader (ih lines.length (by simp [← hlength]) lines rfl)
          | true =>
              rcases whole_or_unclosed hheader lines with ⟨block, rest, hlines, whole⟩ | unclosed
              · obtain ⟨first, hhead, -⟩ := whole.header
                obtain ⟨others, rfl⟩ := List.head?_eq_some_iff.mp hhead
                rw [hlines] at hlength ⊢
                rw [whole.keptLines_append]
                refine .drop whole (ih rest.length ?_ rest rfl)
                rw [← hlength, List.length_append, List.length_cons]
                omega
              · rw [unclosed.keptLines_eq_nil]
                exact .dropRest unclosed

/-- Lines can be parted in one way. -/
theorem Parted.eq_keptLines (parted : Parted name lines left) :
    left = keptLines name none lines := by
  induction parted with
  | done => rfl
  | keep hline parted ih =>
      rw [keptLines, hline, ih]
      rfl
  | drop whole parted ih => rw [whole.keptLines_append, ih]
  | dropRest unclosed => exact unclosed.keptLines_eq_nil.symm

/-- A text without a header stays as it is. -/
theorem Headless.withoutTest_eq (headless : Headless name text) : withoutTest name text = text := by
  have hkept := keptLines_append headless []
  rw [List.append_nil, keptLines, List.append_nil] at hkept
  rw [withoutTest, hkept, flatten_linesKept]

/-- Of a text without a test stay the lines outside of the blocks that begin with
a header of the test and end where braces balance first, or with the text; they
stay as they are, in order. So no line that is left begins the test, only a text
in which none does stays whole, and doing it again changes nothing. -/
theorem withoutTest_parted (name : String) (text : List Char) :
    (∀ left, Parted name (linesKept text) left ↔ left = linesKept (withoutTest name text))
      ∧ (linesKept (withoutTest name text)).Sublist (linesKept text)
      ∧ Headless name (withoutTest name text)
      ∧ (withoutTest name text = text ↔ Headless name text)
      ∧ withoutTest name (withoutTest name text) = withoutTest name text := by
  have hsub : (keptLines name none (linesKept text)).Sublist (linesKept text) :=
    keptLines_sublist none (linesKept text)
  have hlines : linesKept (withoutTest name text) = keptLines name none (linesKept text) :=
    linesKept_flatten hsub
  have hheadless := headless_withoutTest name text
  refine ⟨fun left => ⟨fun parted => ?_, ?_⟩, hlines ▸ hsub, hheadless, ⟨fun hsame => ?_, ?_⟩,
    hheadless.withoutTest_eq⟩
  · rw [hlines, parted.eq_keptLines]
  · rintro rfl
    exact hlines ▸ parted_keptLines (linesKept text)
  · exact hsame ▸ hheadless
  · exact Headless.withoutTest_eq

/-- A brace that closes before any has opened ends no block, and a header inside
a block begins no other. -/
example : withoutTest "TestAdd"
      ("func TestAdd(t *testing.T)\n\x7d\nfunc TestAdd(t *testing.T) \x7b \x7b\n\x7d\n"
        ++ "\x7d\nvar total int").toList
    = "\x7d\nvar total int".toList := by
  decide +kernel

end Assay.TestFile
