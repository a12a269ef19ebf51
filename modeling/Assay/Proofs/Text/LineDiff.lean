/-
The lines that an edit keeps. The table of lengths is filled row by row, a row for each
old line, and an entry of it is the length of a longest common subsequence of the old
lines so far and the new lines up to the entry's column (`IsRow`). A row follows from
the one above it, since a longest common subsequence of two lists is told by those of
the lists without their last lines (`IsLongest.concat_same`, `IsLongest.concat_ne`).

So what is added and removed is what a longest common subsequence leaves of either text
(`exists_kept`), and nothing is only where the texts are the same, as lines are compared
with their endings.
-/
import Assay.Text.LineDiff
import Mathlib.Data.List.Basic

namespace Assay.Text

variable {line candidate : List Char} {old new seen common : List (List Char)}
  {above row : List Nat} {length up left diagonal : Nat}

-- ============================================== longest common subsequences

/-- A longest common subsequence of two lists of lines has this length. -/
structure IsLongest (old new : List (List Char)) (length : Nat) : Prop where
  attained : ∃ common : List (List Char),
    common.Sublist old ∧ common.Sublist new ∧ common.length = length
  longest : ∀ common : List (List Char),
    common.Sublist old → common.Sublist new → common.length ≤ length

theorem isLongest_nil_left (new : List (List Char)) : IsLongest [] new 0 where
  attained := ⟨[], List.nil_sublist _, List.nil_sublist _, rfl⟩
  longest _ hold _ := Nat.le_of_eq (congrArg List.length (List.sublist_nil.mp hold))

theorem isLongest_nil_right (old : List (List Char)) : IsLongest old [] 0 where
  attained := ⟨[], List.nil_sublist _, List.nil_sublist _, rfl⟩
  longest _ _ hnew := Nat.le_of_eq (congrArg List.length (List.sublist_nil.mp hnew))

/-- A subsequence that does not end in the last line does without it. -/
theorem sublist_of_concat (hsub : common.Sublist (old ++ [line]))
    (hlast : common.getLast? ≠ some line) : common.Sublist old := by
  obtain ⟨front, back, rfl, hfront, hback⟩ := List.sublist_append_iff.mp hsub
  rcases List.sublist_singleton.mp hback with rfl | rfl
  · rwa [List.append_nil]
  · exact absurd List.getLast?_concat hlast

/-- But for its own last line, a subsequence does without the last line. -/
theorem dropLast_sublist_of_concat (hsub : common.Sublist (old ++ [line])) :
    common.dropLast.Sublist old := by
  obtain ⟨front, back, rfl, hfront, hback⟩ := List.sublist_append_iff.mp hsub
  rcases List.sublist_singleton.mp hback with rfl | rfl
  · rw [List.append_nil]
    exact (List.dropLast_sublist front).trans hfront
  · rwa [List.dropLast_concat]

namespace IsLongest

/-- A line at the end of both lists makes what they have in common longer by one. -/
theorem concat_same (hlongest : IsLongest old new length) (line : List Char) :
    IsLongest (old ++ [line]) (new ++ [line]) (length + 1) where
  attained := by
    obtain ⟨common, hold, hnew, rfl⟩ := hlongest.attained
    exact ⟨common ++ [line], hold.append_right [line], hnew.append_right [line],
      List.length_append⟩
  longest common hold hnew := by
    have hshorter := hlongest.longest _ (dropLast_sublist_of_concat hold)
      (dropLast_sublist_of_concat hnew)
    rw [List.length_dropLast] at hshorter
    omega

/-- Of two lines at the ends that differ, one is not needed. -/
theorem concat_ne (hne : line ≠ candidate) (hup : IsLongest old (new ++ [candidate]) up)
    (hleft : IsLongest (old ++ [line]) new left) :
    IsLongest (old ++ [line]) (new ++ [candidate]) (max up left) where
  attained := by
    rcases Nat.le_total up left with hle | hle
    · obtain ⟨common, hold, hnew, rfl⟩ := hleft.attained
      exact ⟨common, hold, hnew.trans (List.sublist_append_left _ _), (Nat.max_eq_right hle).symm⟩
    · obtain ⟨common, hold, hnew, rfl⟩ := hup.attained
      exact ⟨common, hold.trans (List.sublist_append_left _ _), hnew, (Nat.max_eq_left hle).symm⟩
  longest common hold hnew := by
    by_cases hlast : common.getLast? = some line
    · have hother : common.getLast? ≠ some candidate := fun hsame =>
        hne (Option.some.inj (hlast.symm.trans hsame))
      have hshort := hleft.longest common hold (sublist_of_concat hnew hother)
      exact Nat.le_trans hshort (Nat.le_max_right _ _)
    · have hshort := hup.longest common (sublist_of_concat hold hlast) hnew
      exact Nat.le_trans hshort (Nat.le_max_left _ _)

end IsLongest

-- =============================================================== the table

/-- A row of the table: what some old lines have in common with the lines seen and the
first new one, with these and the second, and so on. -/
inductive IsRow (old : List (List Char)) :
    (seen new : List (List Char)) → (row : List Nat) → Prop where
  | nil (seen : List (List Char)) : IsRow old seen [] []
  | cons {seen new : List (List Char)} {candidate : List Char} {entry : Nat} {row : List Nat}
      (hentry : IsLongest old (seen ++ [candidate]) entry)
      (hrow : IsRow old (seen ++ [candidate]) new row) :
      IsRow old seen (candidate :: new) (entry :: row)

/-- Before the first old line there is nothing in common. -/
theorem isRow_start (seen new : List (List Char)) : IsRow [] seen new (new.map fun _ => 0) := by
  induction new generalizing seen with
  | nil => exact .nil seen
  | cons candidate new ih => exact .cons (isLongest_nil_left _) (ih _)

/-- A row is made of the one above it. -/
theorem IsRow.next (habove : IsRow old seen new above) (hdiagonal : IsLongest old seen diagonal)
    (hleft : IsLongest (old ++ [line]) seen left) :
    IsRow (old ++ [line]) seen new (commonRow line new above diagonal left) := by
  induction habove generalizing diagonal left with
  | nil seen => exact .nil seen
  | @cons seen new candidate up above hup _ ih =>
      have hentry : IsLongest (old ++ [line]) (seen ++ [candidate])
          (if line = candidate then diagonal + 1 else max up left) := by
        split
        · next hsame => exact hsame ▸ hdiagonal.concat_same line
        · next hne => exact .concat_ne hne hup hleft
      exact .cons hentry (ih hup hentry)

/-- One row after another takes all old lines in. -/
theorem IsRow.foldl {done : List (List Char)} (hrow : IsRow done [] new row)
    (old : List (List Char)) :
    IsRow (done ++ old) [] new (old.foldl (fun row line => commonRow line new row 0 0) row) := by
  induction old generalizing done row with
  | nil => rwa [List.append_nil]
  | cons line old ih =>
      have hnext := ih (hrow.next (isLongest_nil_right done) (isLongest_nil_right (done ++ [line])))
      rwa [List.append_assoc, List.singleton_append] at hnext

/-- The last entry is about all new lines. -/
theorem IsRow.last (hrow : IsRow old seen new row) (hseen : IsLongest old seen length) :
    IsLongest old (seen ++ new) (row.getLastD length) := by
  induction hrow generalizing length with
  | nil seen => rwa [List.append_nil]
  | @cons seen new candidate entry row hentry _ ih =>
      have hlast := ih hentry
      rwa [List.append_assoc, List.singleton_append, ← List.getLastD_cons] at hlast

theorem isLongest_commonLines (old new : List (List Char)) :
    IsLongest old new (commonLines old new) :=
  ((isRow_start [] new).foldl old).last (isLongest_nil_right old)

-- =================================================================== edits

/-- Lines are compared with their endings, so together they are the text. -/
theorem flatten_linesCompared (text : List Char) : (linesCompared text).flatten = text := by
  fun_induction linesCompared text with
  | case1 => rfl
  | case2 text ih => rw [List.flatten_cons, ih]; rfl
  | case3 c text _ hbreak ih => rw [List.flatten_cons, ih]; rfl
  | case4 c text _ hbreak hnone ih =>
      rw [hnone] at ih
      rw [← ih]
      rfl
  | case5 c text _ hbreak line lines hlines ih =>
      rw [hlines] at ih
      rw [← ih]
      rfl

/-- Texts with the same lines are the same. -/
theorem linesCompared_inj {old new : List Char} (hsame : linesCompared old = linesCompared new) :
    old = new := by
  rw [← flatten_linesCompared old, hsame, flatten_linesCompared]

/-- An edit that keeps some lines adds and removes so many: what it keeps is in the old
lines and in the new ones, the other old lines are removed, and the other new lines
added. -/
structure LineChanges.Keeps (changes : LineChanges) (old new kept : List (List Char)) : Prop where
  inOld : kept.Sublist old
  inNew : kept.Sublist new
  removed : changes.removed + kept.length = old.length
  added : changes.added + kept.length = new.length

/-- The changes between two texts are those of an edit that keeps as many lines as can
be kept. -/
theorem exists_kept (old new : List Char) : ∃ kept,
    (lineChanges old new).Keeps (linesCompared old) (linesCompared new) kept
      ∧ ∀ common : List (List Char), common.Sublist (linesCompared old) →
        common.Sublist (linesCompared new) → common.length ≤ kept.length := by
  obtain ⟨⟨kept, hold, hnew, hlength⟩, hlongest⟩ :=
    isLongest_commonLines (linesCompared old) (linesCompared new)
  rw [← hlength] at hlongest
  refine ⟨kept, ⟨hold, hnew, ?_, ?_⟩, hlongest⟩
  · rw [lineChanges, ← hlength]
    exact Nat.sub_add_cancel hold.length_le
  · rw [lineChanges, ← hlength]
    exact Nat.sub_add_cancel hnew.length_le

/-- Nothing is added and nothing removed exactly when the text stays. -/
theorem lineChanges_eq_zero_iff {old new : List Char} :
    (lineChanges old new).added = 0 ∧ (lineChanges old new).removed = 0 ↔ new = old := by
  obtain ⟨kept, hkeeps, hlongest⟩ := exists_kept old new
  have hremoved := hkeeps.removed
  have hadded := hkeeps.added
  constructor
  · rintro ⟨hnothing, hnone⟩
    have hold : kept = linesCompared old := hkeeps.inOld.eq_of_length (by omega)
    have hnew : kept = linesCompared new := hkeeps.inNew.eq_of_length (by omega)
    exact linesCompared_inj (hnew.symm.trans hold)
  · rintro rfl
    have hall := hlongest _ (List.Sublist.refl _) (List.Sublist.refl _)
    omega

end Assay.Text
