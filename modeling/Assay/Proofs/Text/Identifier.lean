/-
The classes of identifier characters, read off their tables: what may begin an
identifier may go on with it, and no blank may do either.
-/
import Assay.Proofs.Text.Blank
import Assay.Text.Identifier

namespace Assay.Text

-- =============================================================== tables

/-- A range lies in another. -/
def liesIn (around range : Nat × Nat) : Bool :=
  decide (around.1 ≤ range.1) && decide (range.2 ≤ around.2)

/-- The ranges of a table lie in those of another, when both come in order: each
of the other takes its share from the front. -/
def Ranges.within (table : Ranges) : (wide : Ranges) → Bool
  | [] => table.isEmpty
  | around :: wide => Ranges.within (table.dropWhile (liesIn around)) wide

theorem Ranges.holds_append (first more : Ranges) (c : Char) :
    Ranges.holds (first ++ more) c = (first.holds c || more.holds c) :=
  List.any_append

theorem Ranges.holds_of_within {table wide : Ranges} {c : Char}
    (within : table.within wide = true) (hc : table.holds c = true) : wide.holds c = true := by
  induction wide generalizing table with
  | nil =>
      rw [List.isEmpty_iff.mp within] at hc
      cases hc
  | cons around wide ih =>
      rw [← List.takeWhile_append_dropWhile (p := liesIn around) (l := table),
        Ranges.holds_append, Bool.or_eq_true] at hc
      show (_ || Ranges.holds wide c) = true
      rw [Bool.or_eq_true]
      refine hc.imp (fun htaken => ?_) (ih within)
      obtain ⟨range, hmem, hrange⟩ := List.any_eq_true.mp htaken
      have hlies := List.mem_takeWhile_imp hmem
      simp only [liesIn, Bool.and_eq_true, decide_eq_true_eq] at hlies hrange ⊢
      omega

-- ============================================================== classes

/-- What may begin an identifier may go on with it. -/
theorem isIdentifierPart_of_isIdentifierStart {c : Char} (hstart : isIdentifierStart c = true) :
    isIdentifierPart c = true := by
  unfold isIdentifierStart at hstart
  unfold isIdentifierPart
  split
  · next hascii =>
      rw [if_pos hascii, Bool.or_eq_true] at hstart
      rw [Bool.or_eq_true, Char.isAlphanum, Bool.or_eq_true]
      exact hstart.imp_left .inl
  · next hwide =>
      rw [if_neg hwide] at hstart
      simp only [← Ranges.holds_append] at hstart ⊢
      exact Ranges.holds_of_within (by decide +kernel) hstart

/-- No blank is part of an identifier. -/
theorem isBlank_of_isIdentifierPart {c : Char} (hpart : isIdentifierPart c = true) :
    isBlank c = false :=
  isBlank_of_class (by decide +kernel) hpart

-- ================================================================ words

/-- A word made of the characters of identifiers. -/
structure IsIdentifier (word : List Char) : Prop where
  some : word ≠ []
  parts : ∀ c ∈ word, isIdentifierPart c = true

instance (word : List Char) : Decidable (IsIdentifier word) :=
  decidable_of_iff (word ≠ [] ∧ word.all isIdentifierPart = true)
    ⟨fun h => ⟨h.1, List.all_eq_true.mp h.2⟩, fun h => ⟨h.some, List.all_eq_true.mpr h.parts⟩⟩

/-- A sign that is part of no identifier is not in one. -/
theorem IsIdentifier.notMem {word : List Char} (identifier : IsIdentifier word) {sign : Char}
    (hsign : isIdentifierPart sign = false) : sign ∉ word := by
  intro hmem
  rw [identifier.parts sign hmem] at hsign
  cases hsign

theorem IsIdentifier.isBlank {word : List Char} (identifier : IsIdentifier word) :
    ∀ c ∈ word, isBlank c = false :=
  fun c hc => isBlank_of_isIdentifierPart (identifier.parts c hc)

end Assay.Text
