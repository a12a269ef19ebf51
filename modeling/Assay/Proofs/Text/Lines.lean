/-
Lines that keep their feeds. Together they are the text, and any of them
together are a text with these lines; so lines can be taken out of a text and
the others counted on. Arguments about a text go line by line, from the first
(`byLine`). Lines without their endings are what is left of these.
-/
import Assay.Text.Lines
import Mathlib.Data.List.Basic

namespace Assay.Text

variable {body more text : List Char}

/-- A text is a line without a feed, or it has a first line and goes on after
it. -/
@[elab_as_elim]
theorem byLine {motive : List Char → Prop} (last : ∀ body, '\n' ∉ body → motive body)
    (line : ∀ body more, '\n' ∉ body → motive more → motive (body ++ '\n' :: more))
    (text : List Char) : motive text := by
  by_cases hfeed : '\n' ∈ text
  · obtain ⟨body, more, htext, hbody⟩ := List.eq_append_cons_of_mem hfeed
    have hshorter : more.length < text.length := by
      rw [htext, List.length_append, List.length_cons]
      omega
    rw [htext]
    exact line body more hbody (byLine last line more)
  · exact last text hfeed
termination_by text.length

-- ======================================================== the one line

theorem linesKept_line (hbody : '\n' ∉ body) (more : List Char) :
    linesKept (body ++ '\n' :: more) = (body ++ ['\n']) :: linesKept more := by
  induction body with
  | nil => rfl
  | cons c body ih =>
      obtain ⟨hc, hbody⟩ := not_or.mp (List.mem_cons.not.mp hbody)
      rw [List.cons_append, linesKept, if_neg (Ne.symm hc), ih hbody]
      rfl

theorem linesKept_last (hbody : '\n' ∉ body) (hsome : body ≠ []) : linesKept body = [body] := by
  induction body with
  | nil => exact absurd rfl hsome
  | cons c body ih =>
      obtain ⟨hc, hbody⟩ := not_or.mp (List.mem_cons.not.mp hbody)
      rw [linesKept, if_neg (Ne.symm hc)]
      cases body with
      | nil => rfl
      | cons d body => rw [ih hbody (List.cons_ne_nil d body)]

-- ======================================================= all the lines

/-- The lines are the text. -/
theorem flatten_linesKept (text : List Char) : (linesKept text).flatten = text := by
  induction text using byLine with
  | last body hbody =>
      by_cases hsome : body = []
      · rw [hsome]
        rfl
      · rw [linesKept_last hbody hsome, List.flatten_singleton]
  | line body more hbody ih =>
      rw [linesKept_line hbody, List.flatten_cons, ih, List.append_assoc, List.singleton_append]

/-- A feed takes a text apart. -/
theorem linesKept_append (first more : List Char) :
    linesKept (first ++ '\n' :: more) = linesKept (first ++ ['\n']) ++ linesKept more := by
  induction first using byLine with
  | last body hbody => rw [linesKept_line hbody, linesKept_line hbody]; rfl
  | line body rest hbody ih =>
      rw [List.append_assoc, List.cons_append, linesKept_line hbody, ih, List.append_assoc,
        List.cons_append, linesKept_line hbody, List.cons_append]

/-- Some of a text's lines are the lines of the text that they are together. -/
theorem linesKept_flatten {lines : List (List Char)} (hsub : lines.Sublist (linesKept text)) :
    linesKept lines.flatten = lines := by
  induction text using byLine generalizing lines with
  | last body hbody =>
      by_cases hsome : body = []
      · rw [hsome] at hsub
        rw [List.sublist_nil.mp hsub]
        rfl
      · rw [linesKept_last hbody hsome] at hsub
        rcases List.sublist_singleton.mp hsub with rfl | rfl
        · rfl
        · rw [List.flatten_singleton, linesKept_last hbody hsome]
  | line body more hbody ih =>
      rw [linesKept_line hbody] at hsub
      cases hsub with
      | cons _ hrest => exact ih hrest
      | cons_cons _ hrest =>
          rw [List.flatten_cons, List.append_assoc, List.singleton_append, linesKept_line hbody,
            ih hrest]

-- =================================================== without their endings

theorem withoutEnding_free (hbody : '\n' ∉ body) : withoutEnding body = body := by
  unfold withoutEnding
  split
  · next hrev => exact absurd (List.mem_reverse.mp (hrev ▸ List.mem_cons_self)) hbody
  · next hrev => exact absurd (List.mem_reverse.mp (hrev ▸ List.mem_cons_self)) hbody
  · rfl

/-- With its feed, a line loses at most one character more. -/
theorem withoutEnding_feed_prefix (body : List Char) : withoutEnding (body ++ ['\n']) <+: body := by
  have hrev : (body ++ ['\n']).reverse = '\n' :: body.reverse := List.reverse_concat
  unfold withoutEnding
  rw [hrev]
  split
  · next rest hreturn =>
      refine ⟨['\r'], ?_⟩
      rw [← List.reverse_cons, ← (List.cons.inj hreturn).2, List.reverse_reverse]
  · next rest _ hfeed =>
      have hrest : rest.reverse = body := by rw [← (List.cons.inj hfeed).2, List.reverse_reverse]
      exact hrest ▸ List.prefix_rfl
  · next hnone => exact absurd rfl (hnone _)

theorem withoutEnding_feed (hreturn : body.getLast? ≠ some '\r') :
    withoutEnding (body ++ ['\n']) = body := by
  have hrev : (body ++ ['\n']).reverse = '\n' :: body.reverse := List.reverse_concat
  unfold withoutEnding
  rw [hrev]
  split
  · next rest hrest =>
      rw [← List.head?_reverse, (List.cons.inj hrest).2] at hreturn
      exact absurd rfl hreturn
  · next rest _ hfeed => rw [← (List.cons.inj hfeed).2, List.reverse_reverse]
  · next hnone => exact absurd rfl (hnone _)

theorem lines_line (hbody : '\n' ∉ body) (more : List Char) :
    lines (body ++ '\n' :: more) = withoutEnding (body ++ ['\n']) :: lines more := by
  rw [lines, linesKept_line hbody, List.map_cons, lines]

theorem lines_last (hbody : '\n' ∉ body) (hsome : body ≠ []) : lines body = [body] := by
  rw [lines, linesKept_last hbody hsome, List.map_singleton, withoutEnding_free hbody]

/-- A line is a stretch of the text, and there is no feed in it. -/
theorem infix_of_mem_lines {line : List Char} (hmem : line ∈ lines text) :
    line <:+: text ∧ '\n' ∉ line := by
  induction text using byLine with
  | last body hbody =>
      by_cases hsome : body = []
      · rw [hsome] at hmem
        cases hmem
      · rw [lines_last hbody hsome] at hmem
        obtain rfl := List.mem_singleton.mp hmem
        exact ⟨List.infix_refl line, hbody⟩
  | line body more hbody ih =>
      rw [lines_line hbody] at hmem
      rcases List.mem_cons.mp hmem with rfl | hmem
      · have hfront := withoutEnding_feed_prefix body
        exact ⟨(hfront.trans (List.prefix_append _ _)).isInfix,
          fun hfeed => hbody (hfront.subset hfeed)⟩
      · exact (ih hmem).imp_left fun hmore =>
          hmore.trans ((List.suffix_cons '\n' more).trans (List.suffix_append body _)).isInfix

/-- A feed takes a text apart. -/
theorem lines_append (first more : List Char) :
    lines (first ++ '\n' :: more) = lines (first ++ ['\n']) ++ lines more := by
  rw [lines, linesKept_append, List.map_append, lines, lines]

/-- A feed at the end of a text ends its last line, or makes an empty one. -/
theorem lines_feed {first : List Char} (hreturn : first.getLast? ≠ some '\r') :
    lines (first ++ ['\n']) = lines first ∨ lines (first ++ ['\n']) = lines first ++ [[]] := by
  induction first using byLine with
  | last body hbody =>
      by_cases hsome : body = []
      · rw [hsome]
        exact .inr rfl
      · rw [lines_line hbody, withoutEnding_feed hreturn, lines_last hbody hsome]
        exact .inl rfl
  | line body more hbody ih =>
      have hmore : more.getLast? ≠ some '\r' := by
        intro hlast
        rw [List.getLast?_append, List.getLast?_cons, hlast] at hreturn
        exact hreturn rfl
      rw [List.append_assoc, List.cons_append, lines_line hbody, lines_line hbody]
      exact (ih hmore).imp (congrArg _) (congrArg _)

end Assay.Text
