/-
What trimming leaves: nothing exactly when there was nothing but blanks.
-/
import Assay.Text.Blank
import Mathlib.Data.List.DropRight

namespace Assay.Text

-- ========================================================= blank texts

theorem allBlank_iff {text : List Char} :
    allBlank text = true ↔ ∀ c ∈ text, isBlank c = true :=
  List.all_eq_true

theorem allBlank_append {first more : List Char} :
    allBlank (first ++ more) = (allBlank first && allBlank more) :=
  List.all_append

/-- The code points of the blanks. -/
def blankPoints : List Nat :=
  [9, 10, 11, 12, 13, 32, 0x85, 0xA0, 0x1680, 0x2000, 0x2001, 0x2002, 0x2003, 0x2004, 0x2005,
    0x2006, 0x2007, 0x2008, 0x2009, 0x200A, 0x2028, 0x2029, 0x202F, 0x205F, 0x3000]

theorem mem_blankPoints {c : Char} (hblank : isBlank c = true) : c.toNat ∈ blankPoints := by
  simp only [isBlank, Bool.or_eq_true, Bool.and_eq_true, decide_eq_true_eq, beq_iff_eq] at hblank
  simp only [blankPoints, List.mem_cons, List.not_mem_nil, or_false]
  omega

/-- A class of characters that holds none of these points holds no blank. -/
theorem isBlank_of_class {holds : Char → Bool}
    (hnone : ∀ n ∈ blankPoints, holds (Char.ofNat n) = false) {c : Char} (hc : holds c = true) :
    isBlank c = false := by
  by_contra hblank
  have hpoint := mem_blankPoints (Bool.not_eq_false _ ▸ hblank)
  have hnot := hnone _ hpoint
  rw [Char.ofNat_toNat, hc] at hnot
  cases hnot

-- ============================================================ trimming

theorem trimStart_eq_nil_iff {text : List Char} :
    trimStart text = [] ↔ allBlank text = true := by
  unfold trimStart
  rw [List.dropWhile_eq_nil_iff, allBlank_iff]

theorem trimEnd_eq_nil_iff {text : List Char} :
    trimEnd text = [] ↔ allBlank text = true := by
  rw [show trimEnd text = text.rdropWhile isBlank from rfl, List.rdropWhile_eq_nil_iff,
    allBlank_iff]

theorem trimStart_trimStart (text : List Char) : trimStart (trimStart text) = trimStart text :=
  List.dropWhile_idempotent isBlank text

theorem trimEnd_trimEnd (text : List Char) : trimEnd (trimEnd text) = trimEnd text :=
  List.rdropWhile_idempotent isBlank text

/-- Trimming stops at a visible character. -/
theorem trimEnd_append {first : List Char} (hlast : ∀ c ∈ first.getLast?, isBlank c = false)
    (more : List Char) : trimEnd (first ++ more) = first ++ trimEnd more := by
  have hfirst : first.reverse.dropWhile isBlank = first.reverse := by
    cases hrev : first.reverse with
    | nil => rfl
    | cons c rest =>
        have hc : first.getLast? = some c := by rw [← List.head?_reverse, hrev]; rfl
        rw [List.dropWhile_cons, if_neg (by rw [hlast c hc]; exact Bool.false_ne_true)]
  rw [trimEnd, trimEnd, List.reverse_append, List.dropWhile_append]
  split
  · next hnone =>
      rw [hfirst, List.isEmpty_iff.mp hnone, List.reverse_reverse, List.reverse_nil,
        List.append_nil]
  · rw [List.reverse_append, List.reverse_reverse]

theorem trimEnd_eq_self {text : List Char} (hlast : ∀ c ∈ text.getLast?, isBlank c = false) :
    trimEnd text = text := by
  simpa [trimEnd] using trimEnd_append hlast []

/-- There is nothing to trim from a text without blanks. -/
theorem trim_eq_self {text : List Char} (hvisible : ∀ c ∈ text, isBlank c = false) :
    trim text = text := by
  have hstart : trimStart text = text := by
    cases text with
    | nil => rfl
    | cons c rest =>
        exact List.dropWhile_cons_of_neg (by simp [hvisible c List.mem_cons_self])
  rw [trim, hstart, trimEnd_eq_self fun c hc => hvisible c (List.mem_of_mem_getLast? hc)]

/-- Trimming a text together with what follows it leaves the text exactly when
there is nothing to trim from it and nothing visible follows. -/
theorem trimEnd_append_eq_iff {first more : List Char} :
    trimEnd (first ++ more) = first ↔ trimEnd first = first ∧ allBlank more = true := by
  have hcut (hfirst : trimEnd first = first) :
      trimEnd (first ++ more) = first ++ trimEnd more := by
    refine trimEnd_append (fun c hc => ?_) more
    obtain ⟨hsome, rfl⟩ := List.mem_getLast?_eq_getLast hc
    have hvisible := List.rdropWhile_eq_self_iff.mp hfirst hsome
    exact Bool.not_eq_true _ ▸ hvisible
  constructor
  · intro hboth
    have hfirst : trimEnd first = first := by rw [← hboth, trimEnd_trimEnd]
    rw [hcut hfirst, List.append_right_eq_self, trimEnd_eq_nil_iff] at hboth
    exact ⟨hfirst, hboth⟩
  · rintro ⟨hfirst, hmore⟩
    rw [hcut hfirst, trimEnd_eq_nil_iff.mpr hmore, List.append_nil]

/-- What trimming takes off is blank. -/
theorem exists_trimEnd (text : List Char) :
    ∃ gap, allBlank gap = true ∧ text = trimEnd text ++ gap := by
  refine ⟨text.rtakeWhile isBlank, allBlank_iff.mpr fun c hc => ?_, ?_⟩
  · exact List.mem_rtakeWhile_imp hc
  · exact List.rdropWhile_append_rtakeWhile.symm

theorem trimStart_trim (text : List Char) : trimStart (trim text) = trim text := by
  obtain ⟨gap, -, hgap⟩ := exists_trimEnd (trimStart text)
  cases htrim : trim text with
  | nil => rfl
  | cons c rest =>
      rw [← trim, htrim, List.cons_append] at hgap
      have hvisible : ¬ isBlank c = true := by
        have hhead := List.head?_dropWhile_not isBlank text
        rw [← trimStart, hgap] at hhead
        simpa using hhead
      exact List.dropWhile_cons_of_neg hvisible

theorem trim_trim (text : List Char) : trim (trim text) = trim text := by
  rw [trim, trimStart_trim, trim, trimEnd_trimEnd]

/-- A text without leading blanks is blank only if nothing is left of it. -/
theorem allBlank_trimStart {text : List Char} :
    allBlank (trimStart text) = true ↔ trimStart text = [] := by
  rw [← trimStart_eq_nil_iff, trimStart_trimStart]

theorem trim_eq_nil_iff {text : List Char} : trim text = [] ↔ allBlank text = true := by
  unfold trim
  rw [trimEnd_eq_nil_iff, allBlank_trimStart, trimStart_eq_nil_iff]

/-- A trimmed text is blank only if nothing is left of it. -/
theorem allBlank_trim {text : List Char} : allBlank (trim text) = true ↔ trim text = [] := by
  unfold trim
  rw [← trimEnd_eq_nil_iff, trimEnd_trimEnd]

/-- A trimmed text ends in a visible character. -/
theorem isBlank_getLast?_trimEnd {text : List Char} {c : Char}
    (hlast : (trimEnd text).getLast? = some c) : isBlank c = false := by
  obtain ⟨hsome, rfl⟩ := List.mem_getLast?_eq_getLast hlast
  have hvisible := List.rdropWhile_last_not isBlank text hsome
  exact Bool.not_eq_true _ ▸ hvisible

theorem isBlank_getLast?_trim {text : List Char} {c : Char} (hlast : (trim text).getLast? = some c) :
    isBlank c = false :=
  isBlank_getLast?_trimEnd hlast

-- ===================================================== blanks around a text

variable {lead trail : List Char}

theorem infix_trim (text : List Char) : trim text <:+: text :=
  (List.rdropWhile_prefix isBlank _).isInfix.trans (List.dropWhile_suffix isBlank).isInfix

/-- Blanks before a text are trimmed with it. -/
theorem trimStart_append (hlead : allBlank lead = true) (text : List Char) :
    trimStart (lead ++ text) = trimStart text :=
  List.dropWhile_append_of_pos (allBlank_iff.mp hlead)

/-- Blanks after a text are trimmed with it. -/
theorem trimEnd_append_blank (htrail : allBlank trail = true) (text : List Char) :
    trimEnd (text ++ trail) = trimEnd text := by
  have hall : ∀ c ∈ trail.reverse, isBlank c = true :=
    fun c hmem => allBlank_iff.mp htrail c (List.mem_reverse.mp hmem)
  rw [trimEnd, List.reverse_append, List.dropWhile_append_of_pos hall, trimEnd]

/-- Blanks around a text are trimmed with it. -/
theorem trim_blanks (hlead : allBlank lead = true) (htrail : allBlank trail = true)
    (text : List Char) : trim (lead ++ text ++ trail) = trim text := by
  rw [trim, List.append_assoc, trimStart_append hlead, trimStart, List.dropWhile_append]
  split
  · next hnone =>
      have htext : trimStart text = [] := List.isEmpty_iff.mp hnone
      have htrail' : trimStart trail = [] := trimStart_eq_nil_iff.mpr htrail
      rw [trim, htext, ← htrail', trimStart]
  · rw [trimEnd_append_blank htrail, trim, trimStart]

end Assay.Text
