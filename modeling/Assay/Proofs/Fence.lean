/-
What is taken off an answer that comes in a fence. The openings begin alike and
are looked for one after the other, but an opening that ends its line is followed
by the line feed, and none of them begins with that; so of a fence just its own
opening is taken (`opened_inFence`), and what stood in it is left, without the
blanks around it (`withoutFences_inFence`).

A fence is taken off once. Taking marks off never makes a text longer, so nothing
is taken off exactly when there is none (`withoutFences_eq_self_iff`), and that is
what it takes for a second time to make no difference.
-/
import Assay.Artifact
import Assay.Proofs.Prompt.Decode

namespace Assay.GeneratedTest

open Text

variable {raw text body opening lead trail : List Char}

-- ================================================================ marks

/-- The text has no fence at its beginning and none at its end. -/
structure Unfenced (text : List Char) : Prop where
  opens : beginsWith fence text = false
  closes : endsWith fence text = false

instance : Decidable (Unfenced text) :=
  decidable_of_iff (beginsWith fence text = false ∧ endsWith fence text = false)
    ⟨fun h => ⟨h.1, h.2⟩, fun h => ⟨h.opens, h.closes⟩⟩

/-- The text without the openings that it begins with. -/
def opened (text : List Char) : List Char := openings.foldl dropOpening text

/-- The text without the fence that it ends with. -/
def closed (text : List Char) : List Char := (before? fence text).getD text

theorem withoutFences_eq (raw : List Char) :
    withoutFences raw = trim (closed (opened (trim raw))) := rfl

theorem dropOpening_suffix (text opening : List Char) : dropOpening text opening <:+ text := by
  rw [dropOpening]
  cases hafter : after? opening text with
  | none => exact List.suffix_refl text
  | some rest => exact ⟨opening, (after?_eq_some_iff.mp hafter).symm⟩

theorem dropOpening_eq_self_iff (hsome : opening ≠ []) :
    dropOpening text opening = text ↔ beginsWith opening text = false := by
  rw [dropOpening, beginsWith]
  cases hafter : after? opening text with
  | none => simp
  | some rest =>
      have htext := after?_eq_some_iff.mp hafter
      refine iff_of_false (fun hsame => hsome ?_) (by simp)
      rw [Option.getD_some] at hsame
      rw [hsame] at htext
      exact List.self_eq_append_left.mp htext

theorem foldl_dropOpening_suffix (marks : List (List Char)) (text : List Char) :
    marks.foldl dropOpening text <:+ text := by
  induction marks generalizing text with
  | nil => exact List.suffix_refl text
  | cons mark marks ih => exact (ih _).trans (dropOpening_suffix text mark)

/-- No mark is taken off when the text begins with none: what one takes off, those
after it do not bring back. -/
theorem foldl_dropOpening_eq_self_iff {marks : List (List Char)} (hmarks : ∀ mark ∈ marks, mark ≠ []) :
    marks.foldl dropOpening text = text ↔ ∀ mark ∈ marks, beginsWith mark text = false := by
  induction marks with
  | nil => exact iff_of_true rfl fun mark hmem => absurd hmem List.not_mem_nil
  | cons mark marks ih =>
      obtain ⟨hmark, hmarks⟩ := List.forall_mem_cons.mp hmarks
      rw [List.forall_mem_cons, ← dropOpening_eq_self_iff hmark, List.foldl_cons]
      constructor
      · intro hsame
        have hlength := (foldl_dropOpening_suffix marks (dropOpening text mark)).length_le
        rw [hsame] at hlength
        have hfirst : dropOpening text mark = text :=
          (dropOpening_suffix text mark).eq_of_length_le hlength
        rw [hfirst] at hsame
        exact ⟨hfirst, (ih hmarks).mp hsame⟩
      · rintro ⟨hfirst, hrest⟩
        rw [hfirst]
        exact (ih hmarks).mpr hrest

/-- Every opening begins with the plain one. -/
theorem fence_prefix_of_mem_openings (hopening : opening ∈ openings) : fence <+: opening := by
  have hall : ∀ opening ∈ openings, fence <+: opening := by decide
  exact hall opening hopening

theorem opened_eq_self_iff : opened text = text ↔ beginsWith fence text = false := by
  rw [opened, foldl_dropOpening_eq_self_iff (by decide)]
  constructor
  · exact fun hall => hall fence (by decide)
  · intro hfence opening hmem
    obtain ⟨more, rfl⟩ := fence_prefix_of_mem_openings hmem
    rw [← Bool.not_eq_true] at hfence ⊢
    intro hbegins
    obtain ⟨rest, rfl⟩ := eq_append_of_beginsWith hbegins
    refine hfence ?_
    rw [beginsWith, List.append_assoc, after?_append]
    rfl

theorem prefix_closed (text : List Char) : closed text <+: text := by
  rw [closed]
  cases hbefore : before? fence text with
  | none => exact List.prefix_refl text
  | some front => exact ⟨fence, (before?_eq_some_iff.mp hbefore).symm⟩

theorem closed_eq_self_iff : closed text = text ↔ endsWith fence text = false := by
  rw [closed, endsWith]
  cases hbefore : before? fence text with
  | none => simp
  | some front =>
      have htext := before?_eq_some_iff.mp hbefore
      refine iff_of_false (fun hsame => ?_) (by simp)
      rw [Option.getD_some] at hsame
      rw [hsame] at htext
      exact absurd (List.self_eq_append_right.mp htext) (by decide)

theorem trim_withoutFences (raw : List Char) : trim (withoutFences raw) = withoutFences raw :=
  trim_trim _

/-- Nothing is taken off a trimmed text that has no fence at its ends, and
something is taken off every other. -/
theorem withoutFences_eq_self_iff :
    withoutFences text = text ↔ trim text = text ∧ Unfenced text := by
  constructor
  · intro hsame
    have htrim : trim text = text := by rw [← hsame, trim_withoutFences]
    rw [withoutFences_eq, htrim] at hsame
    -- each step leaves a part of the text, and all of it is left in the end
    have hclosing := (infix_trim (closed (opened text))).length_le
    rw [hsame] at hclosing
    have hopened : opened text = text :=
      (foldl_dropOpening_suffix openings text).eq_of_length_le
        (hclosing.trans (prefix_closed _).length_le)
    rw [hopened] at hclosing
    exact ⟨htrim, opened_eq_self_iff.mp hopened,
      closed_eq_self_iff.mp ((prefix_closed text).eq_of_length_le hclosing)⟩
  · rintro ⟨htrim, hopens, hcloses⟩
    rw [withoutFences_eq, htrim, opened_eq_self_iff.mpr hopens, closed_eq_self_iff.mpr hcloses,
      htrim]

/-- A text without a fence is only trimmed. -/
theorem withoutFences_of_unfenced (htext : Unfenced (trim text)) :
    withoutFences text = trim text := by
  rw [withoutFences_eq, opened_eq_self_iff.mpr htext.opens, closed_eq_self_iff.mpr htext.closes,
    trim_trim]

-- =============================================================== fences

/-- A text in a fence, on lines of its own. -/
def inFence (opening body : List Char) : List Char := opening ++ '\n' :: (body ++ '\n' :: fence)

/-- A prompt writes its fences in the same way. -/
theorem fenced_eq_inFence (body : List Char) :
    Prompt.fenced body = inFence (fence ++ "go".toList) body ++ ['\n'] := by
  rw [Prompt.fenced_eq, List.append_assoc, inFence, List.append_assoc (fence ++ "go".toList),
    List.cons_append, List.append_assoc body]
  rfl

/-- Of the openings, a fence loses its own: what comes after it is the line
feed. -/
theorem opened_inFence (hopening : opening ∈ openings) (body : List Char) :
    opened (inFence opening body) = '\n' :: (body ++ '\n' :: fence) := by
  rcases List.mem_cons.mp hopening with rfl | hopening
  · rfl
  · rcases List.mem_cons.mp hopening with rfl | hopening
    · rfl
    · obtain rfl := List.mem_singleton.mp hopening
      rfl

theorem trim_inFence (hopening : opening ∈ openings) (body : List Char) :
    trim (inFence opening body) = inFence opening body := by
  obtain ⟨more, rfl⟩ := fence_prefix_of_mem_openings hopening
  have hstart : trimStart (inFence (fence ++ more) body) = inFence (fence ++ more) body :=
    List.dropWhile_cons_of_neg (by decide)
  have hend : (inFence (fence ++ more) body).getLast? = some '\x60' := by
    rw [inFence, ← List.cons_append, ← List.append_assoc, List.getLast?_append]
    rfl
  rw [trim, hstart]
  refine trimEnd_eq_self fun c hlast => ?_
  rw [hend] at hlast
  obtain rfl := Option.some.inj hlast
  decide

/-- What stands in a fence is left, without blanks around it. -/
theorem withoutFences_inFence (hopening : opening ∈ openings) (hlead : allBlank lead = true)
    (htrail : allBlank trail = true) (body : List Char) :
    withoutFences (lead ++ inFence opening body ++ trail) = trim body := by
  have hclosed : closed ('\n' :: (body ++ '\n' :: fence)) = ['\n'] ++ body ++ ['\n'] := by
    have hbefore : before? fence ('\n' :: (body ++ '\n' :: fence))
        = some (['\n'] ++ body ++ ['\n']) := before?_eq_some_iff.mpr (by simp)
    rw [closed, hbefore, Option.getD_some]
  rw [withoutFences_eq, trim_blanks hlead htrail, trim_inFence hopening, opened_inFence hopening,
    hclosed]
  exact trim_blanks (by decide) (by decide) body

/-- An answer in a fence is taken like the text that stands in it, unless that
looks fenced itself; and what a prompt quotes in a fence is what stands there. -/
theorem ofAnswer_inFence :
    (∀ opening ∈ openings, ∀ body lead trail, allBlank lead = true → allBlank trail = true →
      Unfenced (trim body) → ofAnswer (lead ++ inFence opening body ++ trail) = ofAnswer body)
    ∧ ∀ body, withoutFences (Prompt.fenced body) = trim body := by
  refine ⟨fun opening hopening body lead trail hlead htrail hbody => ?_, fun body => ?_⟩
  · have hsame : withoutFences (lead ++ inFence opening body ++ trail) = withoutFences body := by
      rw [withoutFences_inFence hopening hlead htrail, withoutFences_of_unfenced hbody]
    unfold ofAnswer
    rw [hsame]
  · have hfence : withoutFences ([] ++ inFence (fence ++ "go".toList) body ++ ['\n']) = trim body :=
      withoutFences_inFence (by decide) (by decide) (by decide) body
    rwa [List.nil_append, ← fenced_eq_inFence] at hfence

/-- A test that quotes fences in its comments, the last one after the test. -/
def quotingAnswer : List Char :=
  " package calc\n\n// \x60\x60\x60go\nfunc TestAdd(t *testing.T) \x7b\x7d\n// \x60\x60\x60 end\n".toList

/-- The fences in the comments stay. -/
theorem ofAnswer_inFence_quoting :
    fence ++ "golang".toList ∈ openings ∧ allBlank ['\n', ' '] = true ∧ allBlank ['\t'] = true
      ∧ Unfenced (trim quotingAnswer)
      ∧ ofAnswer (['\n', ' '] ++ inFence (fence ++ "golang".toList) quotingAnswer ++ ['\t'])
        = ofAnswer quotingAnswer
      ∧ (ofAnswer quotingAnswer).toOption.map (·.name) = some "TestAdd"
      ∧ withoutFences (Prompt.fenced quotingAnswer) = trim quotingAnswer := by
  have hopening : fence ++ "golang".toList ∈ openings := by decide
  obtain ⟨hunfenced, hname⟩ : Unfenced (trim quotingAnswer)
      ∧ (ofAnswer quotingAnswer).toOption.map (·.name) = some "TestAdd" := by
    rw [show quotingAnswer = _ from String.toList_ofList]
    decide +kernel
  obtain ⟨hanswer, hquoted⟩ := ofAnswer_inFence
  exact ⟨hopening, rfl, rfl, hunfenced, hanswer _ hopening _ _ _ rfl rfl hunfenced,
    hname, hquoted quotingAnswer⟩

/-- Taking fences off a second time makes no difference exactly when the first time
leaves no fence at the ends. So it makes none for an answer that has no fence, and
for one in a fence when there is no other in it. -/
theorem withoutFences_again_iff (raw : List Char) :
    (withoutFences (withoutFences raw) = withoutFences raw ↔ Unfenced (withoutFences raw))
    ∧ (Unfenced (trim raw) → withoutFences (withoutFences raw) = withoutFences raw)
    ∧ ∀ opening ∈ openings, ∀ body lead trail, allBlank lead = true → allBlank trail = true →
      raw = lead ++ inFence opening body ++ trail →
      (withoutFences (withoutFences raw) = withoutFences raw ↔ Unfenced (trim body)) := by
  have hagain : withoutFences (withoutFences raw) = withoutFences raw
      ↔ Unfenced (withoutFences raw) := by
    rw [withoutFences_eq_self_iff, and_iff_right (trim_withoutFences raw)]
  refine ⟨hagain, fun hraw => ?_, fun opening hopening body lead trail hlead htrail hfence => ?_⟩
  · rw [hagain, withoutFences_of_unfenced hraw]
    exact hraw
  · rw [hagain, hfence, withoutFences_inFence hopening hlead htrail]

/-- A test without a fence. -/
def bareTest : List Char := "func TestAdd(t *testing.T) \x7b\x7d".toList

/-- The test in one fence. -/
theorem withoutFences_again_once : fence ∈ openings ∧ Unfenced (trim bareTest)
    ∧ withoutFences (withoutFences ([] ++ inFence fence bareTest ++ ['\n']))
      = withoutFences ([] ++ inFence fence bareTest ++ ['\n']) := by
  have hopening : fence ∈ openings := by decide
  have hunfenced : Unfenced (trim bareTest) := by decide +kernel
  have hagain := (withoutFences_again_iff ([] ++ inFence fence bareTest ++ ['\n'])).2.2
    fence hopening bareTest [] ['\n'] rfl rfl rfl
  exact ⟨hopening, hunfenced, hagain.mpr hunfenced⟩

/-- The test in two fences: the inner one is taken off only the second time. -/
theorem withoutFences_again_nested :
    withoutFences (inFence fence (inFence (fence ++ "go".toList) bareTest))
        = inFence (fence ++ "go".toList) bareTest
      ∧ withoutFences (withoutFences (inFence fence (inFence (fence ++ "go".toList) bareTest)))
        = bareTest
      ∧ withoutFences (withoutFences (inFence fence (inFence (fence ++ "go".toList) bareTest)))
        ≠ withoutFences (inFence fence (inFence (fence ++ "go".toList) bareTest)) := by
  decide +kernel

end Assay.GeneratedTest
