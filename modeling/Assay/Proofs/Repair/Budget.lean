/-
The round budget of a repair run, and what its report says about it.

A run of `N` rounds asks at most `N + 1` times, however it ends. When it ends by
itself its report is exact: the service was asked once more than the report
counts rounds, a run that is exhausted has spent all of them, a run has passed
exactly when the last answer was saved, run and found to pass, and the report
shows the test and the verdict of the last execution.

All of it is one induction over the course of the run. What carries it is
`Accounted`: a report on a session counts on from where the session stands, so
the rounds already spent and the test run last are part of the statement.
-/
import Assay.Proofs.Repair.Course

namespace Assay.Repair

open Prompt TestRun

variable {σ : Type} {services : Services σ} {settings : Settings}

-- ==================================================== reading a history

/-- What the service was asked, request by request. -/
def requests (steps : List (Step σ)) : List (List Message) :=
  steps.filterMap fun
    | .asked messages _ _ => some messages
    | _ => none

/-- The tests that were executed, with what came of each. -/
def executions (steps : List (Step σ)) : List (GeneratedTest × Except RunError Verdict) :=
  steps.filterMap fun
    | .executed test invocation result _ => some (test, result.bind (classify invocation))
    | _ => none

/-- The last answer held a test that was saved, run and found to pass. -/
def LastAnswerPassed (steps : List (Step σ)) : Prop :=
  ∃ earlier messages raw test written invocation output asked saved executed,
    steps = earlier ++ [.asked messages (.ok raw) asked, .saved test (.ok written) saved,
        .executed test invocation (.ok output) executed]
      ∧ GeneratedTest.ofAnswer raw = .ok test
      ∧ classify invocation output = .ok .passed

theorem requests_append (first more : List (Step σ)) :
    requests (first ++ more) = requests first ++ requests more :=
  List.filterMap_append ..

theorem executions_append (first more : List (Step σ)) :
    executions (first ++ more) = executions first ++ executions more :=
  List.filterMap_append ..

-- ========================================================= one attempt

/-- An attempt asks once, or not at all when it is broken off before. -/
theorem Tried.requests_length_le {conversation : Conversation} {before : World σ}
    {taken : List (Step σ)} {result : Except Failure Attempt}
    (tried : Tried settings conversation before taken result) :
    (requests taken).length ≤ 1 := by
  cases tried <;> simp [requests]

/-- An attempt that comes to an end has asked for an answer to its
conversation. -/
theorem Tried.requests_eq {conversation : Conversation} {before : World σ}
    {taken : List (Step σ)} {attempted : Attempt}
    (tried : Tried settings conversation before taken (.ok attempted)) :
    requests taken = [conversation.messages] := by
  cases tried <;> rfl

/-- An attempt that comes to an end has executed the test that it ran. -/
theorem Tried.executions_eq {conversation : Conversation} {before : World σ}
    {taken : List (Step σ)} {attempted : Attempt}
    (tried : Tried settings conversation before taken (.ok attempted)) :
    executions taken = match attempted with
      | .malformed _ _ => []
      | .ran test verdict => [(test, .ok verdict)] := by
  cases tried with
  | malformed => rfl
  | ran found judged => simp [executions, Except.bind, judged]

/-- An attempt that failed leaves no history that ends with a pass. -/
theorem Tried.not_lastAnswerPassed {conversation : Conversation} {before : World σ}
    {taken : List (Step σ)} {attempted : Attempt}
    (tried : Tried settings conversation before taken (.ok attempted))
    (failed : attempted.Failed) : ¬ LastAnswerPassed taken := by
  rintro ⟨earlier, messages, raw, test, written, invocation, output, asked, saved, executed,
    htaken, -, hpassed⟩
  cases tried with
  | malformed => simpa using congrArg List.length htaken
  | ran found judged =>
      have hlength := congrArg List.length htaken
      simp only [List.length_append, List.length_cons, List.length_nil] at hlength
      obtain rfl : earlier = [] := List.eq_nil_of_length_eq_zero (by omega)
      simp only [List.nil_append, List.cons.injEq, Step.executed.injEq, Except.ok.injEq] at htaken
      obtain ⟨-, -, ⟨-, rfl, rfl, -⟩, -⟩ := htaken
      rw [hpassed] at judged
      exact failed (Except.ok.inj judged).symm

/-- An attempt that passed leaves a history that ends with a pass. -/
theorem Tried.lastAnswerPassed {conversation : Conversation} {before : World σ}
    {taken : List (Step σ)} {test : GeneratedTest}
    (tried : Tried settings conversation before taken (.ok (.ran test .passed))) :
    LastAnswerPassed taken := by
  cases tried with
  | ran found judged => exact ⟨[], _, _, _, _, _, _, _, _, _, rfl, found, judged⟩

-- ===================================================== several attempts

/-- Whether the last answer passed is seen from the last steps, once they show
what the service was asked. -/
theorem lastAnswerPassed_append {first more : List (Step σ)} (hasked : requests more ≠ []) :
    LastAnswerPassed (first ++ more) ↔ LastAnswerPassed more := by
  constructor
  · rintro ⟨earlier, messages, raw, test, written, invocation, output, asked, saved, executed,
      htaken, hpassed⟩
    rcases List.append_eq_append_iff.mp htaken with ⟨between, -, hmore⟩ | ⟨between, -, hlast⟩
    · exact ⟨between, _, _, _, _, _, _, _, _, _, hmore, hpassed⟩
    · -- the boundary would lie within the last three steps, and only the first asks
      rcases between with _ | ⟨step, between⟩
      · exact ⟨[], _, _, _, _, _, _, _, _, _, hlast.symm, hpassed⟩
      · obtain ⟨-, hrest⟩ := List.cons.inj ((List.cons_append ..) ▸ hlast)
        have hnone : requests between ++ requests more = [] := by
          rw [← requests_append, ← hrest]
          rfl
        exact absurd (List.append_eq_nil_iff.mp hnone).2 hasked
  · rintro ⟨earlier, messages, raw, test, written, invocation, output, asked, saved, executed,
      rfl, hpassed⟩
    exact ⟨first ++ earlier, _, _, _, _, _, _, _, _, _, by rw [List.append_assoc], hpassed⟩

/-- The last execution, as a report shows it. -/
def Session.lastExecution (session : Session) :
    Option (GeneratedTest × Except RunError Verdict) :=
  session.last.map fun (test, verdict) => (test, .ok verdict)

/-- A report accounts for the steps of a session that had `left` rounds to
spend. -/
structure Accounted (left : Nat) (session : Session) (taken : List (Step σ))
    (report : Report) : Prop where
  asked : (requests taken).length + session.round = report.outcome.rounds + 1
  counted : session.round ≤ report.outcome.rounds
  within : report.outcome.rounds ≤ session.round + left
  spent : ∀ rounds, report.outcome = .exhausted rounds → rounds = session.round + left
  passed : (∃ rounds, report.outcome = .passed rounds) ↔ LastAnswerPassed taken
  last : report.last.map (fun (test, verdict) => (test, .ok verdict))
    = (executions taken).getLast?.or session.lastExecution

/-- The test that an attempt ran is the one its session shows. -/
theorem Tried.lastExecution {session : Session} {before : World σ} {taken : List (Step σ)}
    {attempted : Attempt}
    (tried : Tried settings session.conversation before taken (.ok attempted)) :
    (session.noting attempted).lastExecution
      = (executions taken).getLast?.or session.lastExecution := by
  rw [tried.executions_eq]
  cases attempted <;> rfl

/-- Every course asks at most once more than there are rounds left. -/
theorem Course.requests_length_le {left : Nat} {session : Session} {before : World σ}
    {taken : List (Step σ)} {result : Except Failure Report}
    (course : Course settings left session before taken result) :
    (requests taken).length ≤ left + 1 := by
  induction course with
  | brokenOff tried =>
      have := tried.requests_length_le
      omega
  | passed tried | exhausted tried failed =>
      have := tried.requests_length_le
      omega
  | again tried failed rest ih =>
      have := tried.requests_length_le
      rw [requests_append, List.length_append]
      omega

/-- Every report accounts for the steps of its course. -/
theorem Course.accounted {left : Nat} {session : Session} {before : World σ}
    {taken : List (Step σ)} {result : Except Failure Report}
    (course : Course settings left session before taken result) :
    ∀ report, result = .ok report → Accounted left session taken report := by
  induction course with
  | brokenOff tried => exact fun report hreport => nomatch hreport
  | @passed left session before taken test tried =>
      rintro report ⟨rfl⟩
      exact {
        asked := by rw [tried.requests_eq]; exact Nat.add_comm _ _
        counted := Nat.le_refl _
        within := Nat.le_add_right _ _
        spent := fun rounds hrounds => nomatch hrounds
        passed := ⟨fun _ => tried.lastAnswerPassed, fun _ => ⟨_, rfl⟩⟩
        last := tried.lastExecution }
  | @exhausted session before taken attempted tried failed =>
      have hround : (session.noting attempted).round = session.round := by
        cases attempted <;> rfl
      rintro report ⟨rfl⟩
      exact {
        asked := by
          rw [tried.requests_eq]
          show 1 + session.round = (session.noting attempted).round + 1
          omega
        counted := Nat.le_of_eq hround.symm
        within := Nat.le_of_eq hround
        spent := by
          rintro rounds ⟨rfl⟩
          exact hround
        passed := by
          constructor
          · rintro ⟨rounds, hpassed⟩
            exact nomatch hpassed
          · exact fun hpassed => absurd hpassed (tried.not_lastAnswerPassed failed)
        last := tried.lastExecution }
  | @again left session before taken attempted more result tried failed rest ih =>
      have hround : (session.after attempted).round = session.round + 1 := by
        cases attempted <;> rfl
      have hlast : (session.after attempted).lastExecution
          = (session.noting attempted).lastExecution := rfl
      intro report hreport
      obtain ⟨hasked, hcounted, hwithin, hspent, hpassed, hexecuted⟩ := ih report hreport
      rw [hround] at hasked hcounted hwithin hspent
      exact {
        asked := by
          rw [requests_append, List.length_append, tried.requests_eq, List.length_singleton]
          omega
        counted := by omega
        within := by omega
        spent := fun rounds hrounds => by
          have := hspent rounds hrounds
          omega
        passed := by
          rw [hpassed, lastAnswerPassed_append]
          intro hnone
          rw [hnone, List.length_nil] at hasked
          omega
        last := by
          rw [hexecuted, hlast, tried.lastExecution, executions_append, List.getLast?_append,
            Option.or_assoc] }

-- ============================================================== the run

/-- A run asks at most once more than it has rounds. When it ends by itself, it
was `rounds + 1` requests long for the `rounds` it reports; it is exhausted only
when its rounds are; it has passed exactly when the last answer has; and what it
shows is the last execution. -/
theorem run_within_budget (services : Services σ) (settings : Settings) (initial : List Char)
    (before : State σ) :
    ∃ taken result after,
      run services settings initial before = (result, after)
        ∧ Takes services settings before taken after
        ∧ (requests taken).length ≤ settings.rounds + 1
        ∧ ∀ report, result = .ok report →
            (requests taken).length = report.outcome.rounds + 1
              ∧ report.outcome.rounds ≤ settings.rounds
              ∧ (∀ rounds, report.outcome = .exhausted rounds → rounds = settings.rounds)
              ∧ ((∃ rounds, report.outcome = .passed rounds) ↔ LastAnswerPassed taken)
              ∧ report.last.map (fun (test, verdict) => (test, .ok verdict))
                  = (executions taken).getLast? := by
  obtain ⟨taken, result, after, hrun, htakes, hcourse⟩ :=
    run_course services settings initial before
  refine ⟨taken, result, after, hrun, htakes, hcourse.requests_length_le, ?_⟩
  intro report hreport
  obtain ⟨hasked, -, hwithin, hspent, hpassed, hlast⟩ := hcourse.accounted report hreport
  have hround : (Session.start initial).round = 0 := rfl
  have hnone : (Session.start initial).lastExecution = none := rfl
  rw [hround, Nat.add_zero] at hasked
  rw [hround, Nat.zero_add] at hwithin hspent
  rw [hnone, Option.or_none] at hlast
  exact ⟨hasked, hwithin, hspent, hpassed, hlast⟩

end Assay.Repair
