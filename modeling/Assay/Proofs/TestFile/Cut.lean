/-
What cutting leaves. A text is cut in one pass, and the pass is right when the
stretches begin in order: what is left are the characters at the offsets that no
stretch holds, each where it was among the others. That reading (`outside`) is
the one to argue with, because it can be taken apart at any offset.
-/
import Assay.TestFile.Stale

namespace Assay.TestFile

/-- The stretch covers an offset. -/
def Span.holds (span : Span) (offset : Nat) : Bool :=
  decide (span.start ≤ offset) && decide (offset < span.stop)

/-- Some stretch covers an offset. -/
def held (spans : List Span) (offset : Nat) : Bool := spans.any (·.holds offset)

/-- The characters of a text at offsets that no stretch covers; the text begins
at `offset`. -/
def outside (spans : List Span) (offset : Nat) : List Char → List Char
  | [] => []
  | c :: text =>
    if held spans offset then outside spans (offset + 1) text
    else c :: outside spans (offset + 1) text

variable {spans : List Span} {offset : Nat} {text : List Char}

theorem Span.holds_iff {span : Span} : span.holds offset = true
    ↔ span.start ≤ offset ∧ offset < span.stop := by
  rw [Span.holds, Bool.and_eq_true, decide_eq_true_eq, decide_eq_true_eq]

theorem held_cons {span : Span} :
    held (span :: spans) offset = (span.holds offset || held spans offset) := rfl

-- ============================================================== outside

/-- The parts of a text can be cut apart. -/
theorem outside_append (spans : List Span) (offset : Nat) (first more : List Char) :
    outside spans offset (first ++ more)
      = outside spans offset first ++ outside spans (offset + first.length) more := by
  induction first generalizing offset with
  | nil => rfl
  | cons c first ih =>
      rw [List.cons_append, outside, outside, ih, List.length_cons,
        show offset + 1 + first.length = offset + (first.length + 1) by omega]
      split
      · rfl
      · rw [List.cons_append]

/-- Nothing is added, and nothing changes places. -/
theorem outside_sublist : (outside spans offset text).Sublist text := by
  induction text generalizing offset with
  | nil => exact .slnil
  | cons c text ih =>
      rw [outside]
      split
      · exact ih.cons c
      · exact ih.cons_cons c

/-- A part that no stretch touches stays. -/
theorem outside_eq_self
    (hfree : ∀ i, offset ≤ i → i < offset + text.length → held spans i = false) :
    outside spans offset text = text := by
  induction text generalizing offset with
  | nil => rfl
  | cons c text ih =>
      rw [List.length_cons] at hfree
      rw [outside, hfree offset (Nat.le_refl _) (by omega), if_neg Bool.false_ne_true,
        ih fun i hi hlt => hfree i (by omega) (by omega)]

/-- A part that the stretches cover goes. -/
theorem outside_eq_nil
    (hheld : ∀ i, offset ≤ i → i < offset + text.length → held spans i = true) :
    outside spans offset text = [] := by
  induction text generalizing offset with
  | nil => rfl
  | cons c text ih =>
      rw [List.length_cons] at hheld
      rw [outside, hheld offset (Nat.le_refl _) (by omega), if_pos rfl]
      exact ih fun i hi hlt => hheld i (by omega) (by omega)

/-- A text stays or goes of which all is held, or nothing. -/
theorem outside_uniform {all : Bool}
    (huniform : ∀ i, i < text.length → held spans (offset + i) = all) :
    outside spans offset text = if all then [] else text := by
  have hheld (i : Nat) (hi : offset ≤ i) (hlt : i < offset + text.length) :
      held spans i = all := by
    have hi' := huniform (i - offset) (by omega)
    rwa [Nat.add_sub_cancel' hi] at hi'
  cases all with
  | true => exact outside_eq_nil hheld
  | false => exact outside_eq_self hheld

/-- A part stays that the stretches begin after. -/
theorem outside_append_of_starts {first more : List Char}
    (hstarts : ∀ span ∈ spans, offset + first.length ≤ span.start) :
    outside spans offset (first ++ more) = first ++ outside spans (offset + first.length) more := by
  have hfree : outside spans offset first = first := by
    refine outside_eq_self fun i _ hlt => List.any_eq_false.mpr fun span hmem hholds => ?_
    have hstart := hstarts span hmem
    have hheld := Span.holds_iff.mp hholds
    omega
  rw [outside_append, hfree]

/-- The first characters and the others. -/
theorem outside_split (offset n : Nat) :
    outside spans offset text
      = outside spans offset (text.take n) ++ outside spans (offset + n) (text.drop n) := by
  by_cases hn : n ≤ text.length
  · have happend := outside_append spans offset (text.take n) (text.drop n)
    rwa [List.take_append_drop, List.length_take, Nat.min_eq_left hn] at happend
  · rw [List.take_of_length_le (by omega), List.drop_of_length_le (by omega), outside,
      List.append_nil]

/-- Only the offsets from the first on count. -/
theorem outside_congr {others : List Span}
    (hsame : ∀ i, offset ≤ i → held spans i = held others i) :
    outside spans offset text = outside others offset text := by
  induction text generalizing offset with
  | nil => rfl
  | cons c text ih =>
      rw [outside, outside, hsame offset (Nat.le_refl _), ih fun i hi => hsame i (by omega)]

-- ============================================================== cutting

/-- A stretch that has been passed does not count any more. -/
theorem held_cons_of_passed {span : Span} {i : Nat} (hpassed : span.stop ≤ i) :
    held (span :: spans) i = held spans i := by
  have hnot : span.holds i = false := by
    rw [← Bool.not_eq_true, Span.holds_iff]
    omega
  rw [held_cons, hnot, Bool.false_or]

/-- Once a stretch has begun, its characters go, and it does not count any
more. -/
theorem outside_cons {span : Span} (hbegun : span.start ≤ offset) :
    outside (span :: spans) offset text
      = outside spans (max offset span.stop) (text.drop (span.stop - offset)) := by
  rw [outside_split offset (span.stop - offset), outside_eq_nil, List.nil_append,
    show offset + (span.stop - offset) = max offset span.stop by omega]
  · exact outside_congr fun i hi => held_cons_of_passed (by omega)
  · intro i hi hlt
    rw [List.length_take] at hlt
    rw [held_cons, Span.holds_iff.mpr (by omega), Bool.true_or]

/-- One pass cuts what the stretches cover. -/
theorem cutFrom_eq (hsorted : spans.Pairwise (·.start ≤ ·.start))
    (hproper : ∀ span ∈ spans, span.start ≤ span.stop) (passed : Nat) (text : List Char) :
    cutFrom passed text spans = outside spans passed text := by
  induction spans generalizing passed text with
  | nil => exact (outside_eq_self fun _ _ _ => rfl).symm
  | cons span spans ih =>
      obtain ⟨hlater, hsorted⟩ := List.pairwise_cons.mp hsorted
      obtain ⟨hspan, hproper⟩ := List.forall_mem_cons.mp hproper
      have ih := ih hsorted hproper
      rw [cutFrom]
      split
      · next hbegun => rw [ih, outside_cons (by omega)]
      · next hahead =>
          -- What comes before the stretch comes before all later ones too.
          have hfree : ∀ i, passed ≤ i → i < passed + (text.take (span.start - passed)).length →
              held (span :: spans) i = false := by
            intro i hi hlt
            rw [List.length_take] at hlt
            rw [held, List.any_eq_false]
            intro other hmem
            rw [Span.holds_iff]
            rcases List.mem_cons.mp hmem with rfl | hmem
            · omega
            · have hother := hlater other hmem
              omega
          rw [outside_split passed (span.start - passed), outside_eq_self hfree,
            outside_cons (by omega), List.drop_drop, ih,
            show passed + (span.start - passed) = span.start by omega,
            show max span.start span.stop = max passed span.stop by omega,
            show span.start - passed + (span.stop - span.start) = span.stop - passed by omega]

/-- What cutting leaves is what lies outside. -/
theorem cut_eq (hsorted : spans.Pairwise (·.start ≤ ·.start))
    (hproper : ∀ span ∈ spans, span.start ≤ span.stop) (text : List Char) :
    cut text spans = outside spans 0 text :=
  cutFrom_eq hsorted hproper 0 text

end Assay.TestFile
