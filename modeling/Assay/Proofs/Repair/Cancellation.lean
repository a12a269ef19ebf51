/-
What becomes of a repair run that is cancelled, at whatever moment.

The run looks at the flag before each step and never takes one while it is set,
so the step during which it is set is the last one (`Chained.last`). After that
step the run either reaches the next look, and ends as cancelled, or it ends
before that look by what the step brought: `Step.Ends` lists the ways. The
induction over the course of the run shows that there are no others.

A look and the step after it are one step here: what happens between them
happens during the step.
-/
import Assay.Proofs.Repair.Budget

namespace Assay.Repair

open TestRun

variable {σ : Type} {services : Services σ} {settings : Settings}

-- ========================================================== the last step

/-- The step that leaves a cancelled world is the last. -/
theorem Chained.last {before : World σ} {earlier later : List (Step σ)} {step : Step σ}
    (chained : Chained services settings before (earlier ++ step :: later))
    (cancelled : step.world.cancelled = true) : later = [] := by
  obtain ⟨-, -, hlater⟩ := chained.later
  cases later with
  | nil => rfl
  | cons next later =>
      rw [hlater.1] at cancelled
      cases cancelled

/-- The ways in which a step ends a run by itself, whether or not it has been
cancelled, when `spent` says that no round is left: with a failure that is no
cancellation, with a passing test, or by spending the last round. -/
inductive Step.Ends (settings : Settings) (spent : Prop) :
    Step σ → Except Failure Report → Prop where
  | unanswered {messages error world} (other : error ≠ .cancelled) :
      Ends settings spent (.asked messages (.error error) world) (.error (.generation error))
  | unusable {messages raw error world} (strict : settings.repairMalformed = false)
      (noTest : GeneratedTest.ofAnswer raw = .error error) :
      Ends settings spent (.asked messages (.ok raw) world) (.error (.artifact error))
  | malformed {messages raw error world report rounds} (last : spent)
      (lenient : settings.repairMalformed = true)
      (noTest : GeneratedTest.ofAnswer raw = .error error)
      (exhausted : report.outcome = .exhausted rounds) :
      Ends settings spent (.asked messages (.ok raw) world) (.ok report)
  | unsaved {test error world} :
      Ends settings spent (.saved test (.error error) world) (.error (.save error))
  | unfinished {test invocation error world} (other : error ≠ .cancelled) :
      Ends settings spent (.executed test invocation (.error error) world) (.error (.run error))
  | unjudged {test invocation output error world}
      (noVerdict : classify invocation output = .error error) :
      Ends settings spent (.executed test invocation (.ok output) world) (.error (.run error))
  | passed {test invocation output world report rounds}
      (judged : classify invocation output = .ok .passed)
      (passed : report.outcome = .passed rounds) :
      Ends settings spent (.executed test invocation (.ok output) world) (.ok report)
  | failed {test invocation output verdict world report rounds} (last : spent)
      (judged : classify invocation output = .ok verdict) (failed : verdict ≠ .passed)
      (exhausted : report.outcome = .exhausted rounds) :
      Ends settings spent (.executed test invocation (.ok output) world) (.ok report)

theorem Step.Ends.imp {spent last : Prop} (himp : spent → last) {step : Step σ}
    {result : Except Failure Report} (ends : step.Ends settings spent result) :
    step.Ends settings last result := by
  cases ends with
  | unanswered other => exact .unanswered other
  | unusable strict noTest => exact .unusable strict noTest
  | malformed hspent lenient noTest exhausted =>
      exact .malformed (himp hspent) lenient noTest exhausted
  | unsaved => exact .unsaved
  | unfinished other => exact .unfinished other
  | unjudged noVerdict => exact .unjudged noVerdict
  | passed judged passed => exact .passed judged passed
  | failed hspent judged failed exhausted => exact .failed (himp hspent) judged failed exhausted

/-- The last of the steps ends the run by itself. -/
def EndedBy (settings : Settings) (spent : Prop) (steps : List (Step σ))
    (result : Except Failure Report) : Prop :=
  ∃ earlier step, steps = earlier ++ [step] ∧ step.Ends settings spent result

/-- A service has noticed the cancellation itself and says so. -/
def Step.Aborted : Step σ → Prop
  | asked _ answer _ => answer = .error .cancelled
  | executed _ _ result _ => result = .error .cancelled
  | saved _ _ _ => False

/-- The last of the steps was broken off by a service. -/
def EndedAborted (steps : List (Step σ)) : Prop :=
  ∃ earlier step, steps = earlier ++ [step] ∧ step.Aborted

-- ========================================================= one attempt

theorem ofGeneration_eq_cancelled_iff {error : Service.GenerationError} :
    Failure.ofGeneration error = .cancelled ↔ error = .cancelled := by
  cases error <;> simp [Failure.ofGeneration]

theorem ofGeneration_of_ne {error : Service.GenerationError} (other : error ≠ .cancelled) :
    Failure.ofGeneration error = .generation error := by
  cases error <;> simp [Failure.ofGeneration] at other ⊢

theorem ofRun_eq_cancelled_iff {error : RunError} :
    Failure.ofRun error = .cancelled ↔ error = .cancelled := by
  cases error <;> simp [Failure.ofRun]

theorem ofRun_of_ne {error : RunError} (other : error ≠ .cancelled) :
    Failure.ofRun error = .run error := by
  cases error <;> simp [Failure.ofRun] at other ⊢

/-- A finished test run is never judged to have been cancelled. -/
theorem classify_ne_cancelled (invocation : Invocation) (output : ProcessOutput) :
    classify invocation output ≠ .error .cancelled := by
  unfold classify
  split
  · split <;> simp
  · split
    · simp
    · split <;> simp

/-- An attempt that is broken off has been cancelled, or its last step ends the
run. -/
theorem Tried.cancelled_or_endedBy {conversation : Prompt.Conversation} {before : World σ}
    {taken : List (Step σ)} {failure : Failure}
    (tried : Tried settings conversation before taken (.error failure)) (spent : Prop) :
    failure = .cancelled ∨ EndedBy settings spent taken (.error failure) := by
  cases tried with
  | unasked | unsaved | unexecuted => exact Or.inl rfl
  | @unanswered error =>
      by_cases hcancelled : error = .cancelled
      · exact Or.inl (ofGeneration_eq_cancelled_iff.mpr hcancelled)
      · rw [ofGeneration_of_ne hcancelled]
        exact Or.inr ⟨[], _, rfl, .unanswered hcancelled⟩
  | unusable strict noTest => exact Or.inr ⟨[], _, rfl, .unusable strict noTest⟩
  | unwritten found => exact Or.inr ⟨[_], _, rfl, .unsaved⟩
  | @unfinished raw test written invocation error asked saved executed found =>
      by_cases hcancelled : error = .cancelled
      · exact Or.inl (ofRun_eq_cancelled_iff.mpr hcancelled)
      · rw [ofRun_of_ne hcancelled]
        exact Or.inr ⟨[_, _], _, rfl, .unfinished hcancelled⟩
  | unjudged found noVerdict =>
      have hcancelled := fun h => classify_ne_cancelled _ _ (noVerdict.trans (congrArg _ h))
      rw [ofRun_of_ne hcancelled]
      exact Or.inr ⟨[_, _], _, rfl, .unjudged noVerdict⟩

/-- An attempt that is cancelled has met the flag, or a service that has. -/
theorem Tried.stopped_or_aborted {conversation : Prompt.Conversation} {before : World σ}
    {taken : List (Step σ)}
    (tried : Tried settings conversation before taken (.error .cancelled)) :
    (worldAfter before taken).cancelled = true ∨ EndedAborted taken := by
  generalize hresult : (.error .cancelled : Except Failure Attempt) = result at tried
  cases tried with
  | unasked stopped | unsaved found stopped | unexecuted found stopped => exact Or.inl stopped
  | unanswered =>
      have hcancelled := ofGeneration_eq_cancelled_iff.mp (Except.error.inj hresult).symm
      exact Or.inr ⟨[], _, rfl, congrArg _ hcancelled⟩
  | unfinished found =>
      have hcancelled := ofRun_eq_cancelled_iff.mp (Except.error.inj hresult).symm
      exact Or.inr ⟨[_, _], _, rfl, congrArg _ hcancelled⟩
  | unjudged found noVerdict =>
      have hcancelled := ofRun_eq_cancelled_iff.mp (Except.error.inj hresult).symm
      exact absurd (noVerdict.trans (congrArg _ hcancelled)) (classify_ne_cancelled _ _)
  | unusable | unwritten => cases hresult
  | malformed | ran => cases hresult

-- ======================================================== the whole course

theorem EndedBy.append {spent last : Prop} {steps : List (Step σ)} {result : Except Failure Report}
    (ended : EndedBy settings spent steps result) (himp : spent → last)
    (first : List (Step σ)) : EndedBy settings last (first ++ steps) result := by
  obtain ⟨earlier, step, rfl, ends⟩ := ended
  exact ⟨first ++ earlier, step, (List.append_assoc ..).symm, ends.imp himp⟩

/-- A run is cancelled, or its last step ends it. -/
theorem Course.cancelled_or_endedBy {left : Nat} {session : Session} {before : World σ}
    {taken : List (Step σ)} {result : Except Failure Report}
    (course : Course settings left session before taken result) :
    result = .error .cancelled
      ∨ EndedBy settings ((requests taken).length = left + 1) taken result := by
  induction course with
  | brokenOff tried => exact (tried.cancelled_or_endedBy _).imp_left (congrArg _)
  | passed tried =>
      right
      cases tried with
      | ran found judged => exact ⟨[_, _], _, rfl, .passed judged rfl⟩
  | @exhausted session before taken attempted tried failed =>
      right
      have hspent := tried.requests_eq
      cases tried with
      | malformed lenient noTest => exact ⟨[], _, rfl, .malformed rfl lenient noTest rfl⟩
      | ran found judged => exact ⟨[_, _], _, rfl, .failed rfl judged failed rfl⟩
  | again tried failed rest ih =>
      refine ih.imp_right fun ended => ended.append ?_ _
      intro hspent
      rw [requests_append, tried.requests_eq, List.length_append, hspent, List.length_singleton,
        Nat.add_comm]

/-- A run that ends as cancelled has met the flag, or a service that has. -/
theorem Course.stopped_or_aborted {left : Nat} {session : Session} {before : World σ}
    {taken : List (Step σ)} {result : Except Failure Report}
    (course : Course settings left session before taken result)
    (cancelled : result = .error .cancelled) :
    (worldAfter before taken).cancelled = true ∨ EndedAborted taken := by
  induction course with
  | brokenOff tried =>
      obtain rfl := Except.error.inj cancelled
      exact tried.stopped_or_aborted
  | passed | exhausted => cases cancelled
  | again tried failed rest ih =>
      rw [worldAfter_append]
      refine (ih cancelled).imp_right ?_
      rintro ⟨earlier, step, rfl, aborted⟩
      exact ⟨_ ++ earlier, step, (List.append_assoc ..).symm, aborted⟩

-- ============================================================== the run

/-- A run that is cancelled before it begins does nothing at all. -/
theorem run_stopped (services : Services σ) (settings : Settings) (initial : List Char)
    {before : State σ} (stopped : before.world.cancelled = true) :
    run services settings initial before = (.error .cancelled, before) := by
  have hattempt : attempt services settings (Session.start initial).conversation before
      = (.error .cancelled, before) := by
    unfold attempt
    rw [Action.bind_run, checkpoint_run_stopped stopped]
  exact loop_brokenOff hattempt

/-- What a cancellation does to a run. One that comes before the run lets it do
nothing. One that comes during a step lets the run take no other, and the run
ends as cancelled unless that step ends it by itself. And a run ends as
cancelled only then, or when a service says so that was asked last. -/
theorem run_cancelled (services : Services σ) (settings : Settings) (initial : List Char)
    (before : State σ) :
    ∃ taken result after,
      run services settings initial before = (result, after)
        ∧ Takes services settings before taken after
        ∧ (before.world.cancelled = true →
            taken = [] ∧ result = .error .cancelled ∧ after = before)
        ∧ (∀ earlier step later, taken = earlier ++ step :: later →
            step.world.cancelled = true → later = []
              ∧ (result = .error .cancelled
                ∨ step.Ends settings ((requests taken).length = settings.rounds + 1) result))
        ∧ (result = .error .cancelled →
            after.world.cancelled = true ∨ EndedAborted taken) := by
  obtain ⟨taken, result, after, hrun, htakes, hcourse⟩ :=
    run_course services settings initial before
  refine ⟨taken, result, after, hrun, htakes, ?_, ?_, ?_⟩
  · intro stopped
    rw [run_stopped services settings initial stopped] at hrun
    obtain ⟨rfl, rfl⟩ := Prod.mk.inj hrun
    exact ⟨List.append_right_eq_self.mp htakes.steps.symm, rfl, rfl⟩
  · rintro earlier step later rfl cancelled
    obtain rfl := htakes.chained.last cancelled
    refine ⟨rfl, hcourse.cancelled_or_endedBy.imp_right ?_⟩
    rintro ⟨others, last, hlast, ends⟩
    obtain rfl : step = last := by
      have hsame := congrArg List.getLast? hlast
      rw [List.getLast?_concat, List.getLast?_concat] at hsame
      exact Option.some.inj hsame
    exact ends
  · intro cancelled
    rw [htakes.world]
    exact hcourse.stopped_or_aborted cancelled

end Assay.Repair
