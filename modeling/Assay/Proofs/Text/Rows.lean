/-
Lines by offsets. Where the line through an offset begins and where it ends is
settled by the line feeds between that offset and another, and so is whether the
two are in the same row; so each of the three can be read as either of the
others. An offset's row is also the place of its line among the lines.
-/
import Assay.Proofs.Text.Lines

namespace Assay.Text

variable {text : List Char} {i j : Nat}

/-- How far a prefix that fits reaches. -/
theorem le_length_takeWhile_iff {α : Type} (fits : α → Bool) (items : List α) (n : Nat) :
    n ≤ (items.takeWhile fits).length ↔ n ≤ items.length ∧ ∀ x ∈ items.take n, fits x = true := by
  induction items generalizing n with
  | nil => simp
  | cons x items ih =>
      cases n with
      | zero => simp
      | succ n =>
          rw [List.takeWhile_cons, List.take_succ_cons, List.forall_mem_cons, List.length_cons]
          by_cases hx : fits x = true
          · rw [if_pos hx, List.length_cons, Nat.succ_le_succ_iff, Nat.succ_le_succ_iff, ih]
            exact and_congr_right fun _ => ⟨fun h => ⟨hx, h⟩, And.right⟩
          · rw [if_neg hx]
            exact ⟨fun h => absurd h (Nat.not_succ_le_zero n), fun h => absurd h.2.1 hx⟩

/-- Two offsets are in one row when no line feed lies between them. -/
theorem rowOf_eq_iff (hle : i ≤ j) : rowOf text i = rowOf text j ↔ '\n' ∉ (text.take j).drop i := by
  have hsplit := List.take_append_drop i (text.take j)
  rw [List.take_take, Nat.min_eq_left hle] at hsplit
  have hcount := congrArg (List.count '\n') hsplit
  rw [List.count_append] at hcount
  rw [← List.count_eq_zero, rowOf, rowOf]
  omega

theorem rowOf_mono (text : List Char) (hle : i ≤ j) : rowOf text i ≤ rowOf text j :=
  (List.take_sublist_take_left hle).count_le '\n'

/-- Rows go up with the line feeds in between. -/
theorem rowOf_add (text : List Char) (first n : Nat) :
    rowOf text (first + n) = rowOf text first + ((text.drop first).take n).count '\n' := by
  rw [rowOf, List.take_add, List.count_append, rowOf]

/-- A character that is no line feed does not end a row. -/
theorem rowOf_succ {c : Char} (hc : text[i]? = some c) (hfeed : c ≠ '\n') :
    rowOf text (i + 1) = rowOf text i := by
  have hsingle : List.count '\n' [c] = 0 := List.count_eq_zero.mpr fun hmem =>
    hfeed (List.mem_singleton.mp hmem).symm
  rw [rowOf, List.take_add_one, hc, List.count_append, Option.toList_some, hsingle, Nat.add_zero,
    rowOf]

theorem lineStart_le : lineStart text i ≤ i := Nat.sub_le _ _

/-- A line begins after a line feed. -/
theorem lineStart_feed (first rest : List Char) :
    lineStart (first ++ '\n' :: rest) (first.length + 1) = first.length + 1 := by
  have htake : (first ++ ['\n'] ++ rest).take (first.length + 1) = first ++ ['\n'] :=
    List.take_left' List.length_append
  rw [List.append_assoc, List.singleton_append] at htake
  rw [lineStart, htake, List.reverse_append]
  rfl

/-- A line begins no later than another offset when the two are in one row. -/
theorem lineStart_le_iff (hle : i ≤ j) (hlength : j ≤ text.length) :
    lineStart text j ≤ i ↔ rowOf text i = rowOf text j := by
  have hline := le_length_takeWhile_iff (fun c : Char => decide (c ≠ '\n'))
    (text.take j).reverse (j - i)
  rw [List.length_reverse, List.length_take, Nat.min_eq_left hlength, List.take_reverse,
    List.length_take, Nat.min_eq_left hlength, Nat.sub_sub_self hle] at hline
  have hstretch : (∀ c ∈ ((text.take j).drop i).reverse, decide (c ≠ '\n') = true)
      ↔ '\n' ∉ (text.take j).drop i := by
    simp only [List.mem_reverse, decide_eq_true_eq]
    exact ⟨fun h hmem => h _ hmem rfl, fun h c hc hfeed => h (hfeed ▸ hc)⟩
  rw [and_iff_right (Nat.sub_le _ _)] at hline
  rw [rowOf_eq_iff hle, ← hstretch, ← hline, lineStart]
  omega

theorem lineStart_mono (hle : i ≤ j) (hlength : j ≤ text.length) :
    lineStart text i ≤ lineStart text j := by
  have hstart : lineStart text i ≤ i := lineStart_le
  by_cases hlate : i ≤ lineStart text j
  · exact Nat.le_trans hstart hlate
  · -- The later offset is in the row of the earlier one, and so is its line's start.
    have hle' : lineStart text j ≤ i := by omega
    have hrow := (lineStart_le_iff hle hlength).mp hle'
    have hrow' := (lineStart_le_iff lineStart_le hlength).mp (Nat.le_refl (lineStart text j))
    exact (lineStart_le_iff hle' (Nat.le_trans hle hlength)).mpr (hrow'.trans hrow.symm)

/-- An offset comes before the end of a line when it is in the row. -/
theorem lt_lineEnd_iff (hle : i ≤ j) (hlength : j < text.length) :
    j < lineEnd text i ↔ rowOf text i = rowOf text j := by
  have hline := le_length_takeWhile_iff (fun c : Char => decide (c ≠ '\n')) (text.drop i) (j - i)
  have hbody := (List.takeWhile_sublist (· ≠ '\n') (l := text.drop i)).length_le
  rw [List.length_drop] at hline hbody
  have hstretch : (∀ c ∈ (text.drop i).take (j - i), decide (c ≠ '\n') = true)
      ↔ '\n' ∉ (text.take j).drop i := by
    rw [List.drop_take]
    simp only [decide_eq_true_eq]
    exact ⟨fun h hmem => h _ hmem rfl, fun h c hc hfeed => h (hfeed ▸ hc)⟩
  rw [and_iff_right (by omega)] at hline
  rw [rowOf_eq_iff hle, ← hstretch, ← hline]
  unfold lineEnd
  dsimp only
  rw [List.length_drop]
  split <;> omega

/-- A line ends within the text, and no earlier than the offset. -/
theorem le_lineEnd (hlength : i ≤ text.length) :
    i ≤ lineEnd text i ∧ lineEnd text i ≤ text.length := by
  unfold lineEnd
  dsimp only
  rw [List.length_drop]
  split <;> omega

-- ========================================================= rows in order

/-- A line begins no later than an offset when the offset's row is the line's or
a later one. -/
theorem lineStart_le_iff_rowOf_le (hlength : j ≤ text.length) :
    lineStart text j ≤ i ↔ rowOf text j ≤ rowOf text i := by
  by_cases hle : j ≤ i
  · exact iff_of_true (Nat.le_trans lineStart_le hle) (rowOf_mono text hle)
  · have hlt : i ≤ j := by omega
    have hrows := rowOf_mono text hlt
    rw [lineStart_le_iff hlt hlength]
    omega

/-- An offset comes before the end of a line when its row is the line's or an
earlier one. -/
theorem lt_lineEnd_iff_rowOf_le (hlength : j ≤ text.length) (hi : i < text.length) :
    i < lineEnd text j ↔ rowOf text i ≤ rowOf text j := by
  by_cases hle : j ≤ i
  · have hrows := rowOf_mono text hle
    rw [lt_lineEnd_iff hle hi]
    omega
  · have hlt : i < j := by omega
    exact iff_of_true (Nat.lt_of_lt_of_le hlt (le_lineEnd hlength).1)
      (rowOf_mono text (Nat.le_of_lt hlt))

/-- A character ends at most one row. -/
theorem rowOf_succ_le (text : List Char) (i : Nat) : rowOf text (i + 1) ≤ rowOf text i + 1 := by
  rw [rowOf, List.take_add_one, List.count_append, rowOf]
  have hcount : text[i]?.toList.count '\n' ≤ text[i]?.toList.length := List.count_le_length
  have hlength : text[i]?.toList.length ≤ 1 := Option.length_toList_le
  omega

/-- A line ends at the first offset of the next row. -/
theorem eq_lineEnd_iff (hlength : j ≤ text.length) (hi : i < text.length) :
    i = lineEnd text j
      ↔ rowOf text i = rowOf text j + 1 ∧ ∀ k < i, rowOf text k < rowOf text i := by
  have hend {k : Nat} (hk : k < text.length) : k < lineEnd text j ↔ rowOf text k ≤ rowOf text j :=
    lt_lineEnd_iff_rowOf_le hlength hk
  constructor
  · intro hat
    have hlater : rowOf text j < rowOf text i := by
      have := hend hi
      omega
    have hearlier : ∀ k < i, rowOf text k ≤ rowOf text j := fun k hk =>
      (hend (Nat.lt_trans hk hi)).mp (hat ▸ hk)
    refine ⟨?_, fun k hk => Nat.lt_of_le_of_lt (hearlier k hk) hlater⟩
    cases i with
    | zero => exact absurd hlater (Nat.not_lt_zero _)
    | succ i =>
        have hbefore := hearlier i (Nat.lt_succ_self i)
        have hstep := rowOf_succ_le text i
        omega
  · rintro ⟨hnext, hfirst⟩
    have hreached : lineEnd text j ≤ i := by
      have := hend hi
      omega
    by_contra hother
    have hbefore := hfirst (lineEnd text j) (by omega)
    have := hend (Nat.lt_of_le_of_lt hreached hi)
    omega

-- ======================================================= rows and lines

variable {body more : List Char}

theorem rowOf_body (hbody : '\n' ∉ body) (hi : i ≤ body.length) (more : List Char) :
    rowOf (body ++ more) i = 0 := by
  rw [rowOf, List.take_append_of_le_length hi, List.count_eq_zero]
  exact fun hmem => hbody (List.mem_of_mem_take hmem)

theorem rowOf_more (hbody : '\n' ∉ body) (more : List Char) (i : Nat) :
    rowOf (body ++ '\n' :: more) (body.length + 1 + i) = rowOf more i + 1 := by
  rw [rowOf, Nat.add_assoc, Nat.add_comm 1, List.take_length_add_append, List.take_succ_cons,
    List.count_append, List.count_cons_self, List.count_eq_zero.mpr hbody, Nat.zero_add, rowOf]

/-- The line in an offset's row is a line feed alone when there is one at the
offset, and the row begins there. -/
theorem getElem?_linesKept_rowOf (hi : i < text.length) :
    (linesKept text)[rowOf text i]? = some ['\n']
      ↔ text[i]? = some '\n' ∧ ∀ k < i, rowOf text k < rowOf text i := by
  induction text using byLine generalizing i with
  | last body hbody =>
      have hfeed : body[i]? ≠ some '\n' := fun hat => hbody (List.mem_of_getElem? hat)
      have hrow := rowOf_body hbody (Nat.le_of_lt hi) []
      rw [List.append_nil] at hrow
      rw [hrow, linesKept_last hbody (List.ne_nil_of_length_pos (by omega))]
      refine iff_of_false (fun hline => hbody ?_) fun hat => hfeed hat.1
      have hline : body = ['\n'] := Option.some.inj hline
      exact hline ▸ List.mem_singleton_self _
  | line body more hbody ih =>
      rw [linesKept_line hbody]
      by_cases hfirst : i ≤ body.length
      · rw [rowOf_body hbody hfirst]
        constructor
        · intro hline
          obtain rfl := List.append_left_eq_self.mp (Option.some.inj hline)
          obtain rfl := Nat.le_zero.mp hfirst
          exact ⟨rfl, fun k hk => absurd hk (Nat.not_lt_zero k)⟩
        · rintro ⟨hat, hbegins⟩
          -- Offset zero is in this row too.
          have hzero : i = 0 := Nat.eq_zero_of_not_pos fun hpos =>
            Nat.not_lt_zero _ (hbegins 0 hpos)
          subst hzero
          cases body with
          | nil => rfl
          | cons c body =>
              cases hat
              exact absurd List.mem_cons_self hbody
      · obtain ⟨k, rfl⟩ := Nat.exists_eq_add_of_lt (Nat.lt_of_not_le hfirst)
        rw [show body.length + k + 1 = body.length + 1 + k by omega] at hi ⊢
        rw [List.length_append, List.length_cons] at hi
        rw [rowOf_more hbody, List.getElem?_cons_succ, ih (by omega),
          List.getElem?_append_right (by omega),
          show body.length + 1 + k - body.length = k + 1 by omega, List.getElem?_cons_succ]
        refine and_congr_right fun _ => ⟨fun hbegins l hl => ?_, fun hbegins l hl => ?_⟩
        · by_cases hbefore : l ≤ body.length
          · rw [rowOf_body hbody hbefore]
            exact Nat.succ_pos _
          · obtain ⟨l, rfl⟩ := Nat.exists_eq_add_of_lt (Nat.lt_of_not_le hbefore)
            rw [show body.length + l + 1 = body.length + 1 + l by omega, rowOf_more hbody]
            exact Nat.succ_lt_succ (hbegins l (by omega))
        · have hless := hbegins (body.length + 1 + l) (by omega)
          rw [rowOf_more hbody] at hless
          exact Nat.lt_of_succ_lt_succ hless

end Assay.Text
