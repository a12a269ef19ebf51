/-
The course of a repair run: which steps it takes, in which order, and what it
makes of them.

A run is a monadic loop, and none of its laws should have to open the monad. So
the loop is opened here once. `Tried` lists the ten ways an attempt can go, each
with the steps it takes and what comes of it. `Course` strings attempts together
as the loop does. `run_course` says that every run follows a course, and that
the steps it wrote down are the ones it took (`Takes`): each is what the services
made of the world that the step before it had left. The laws of the loop are
then inductions over `Course`.
-/
import Assay.Repair.Loop

namespace Assay.Repair

open Prompt TestRun Repair.Action

variable {σ : Type} {services : Services σ} {settings : Settings}

-- =========================================================== the history

/-- The world that steps leave. -/
def worldAfter (before : World σ) : List (Step σ) → World σ
  | [] => before
  | step :: steps => worldAfter step.world steps

/-- The step is what the services make of the world before it. A save leaves what
is the services' own, and the user may cancel the run in the meantime. -/
def Step.Follows (services : Services σ) (settings : Settings) (before : World σ) :
    Step σ → Prop
  | .asked messages answer world => services.answer messages before = (answer, world)
  | .saved test result world =>
    TestFile.save services.machine settings.fixer settings.target settings.package test
        before.disk = (result, world.disk)
      ∧ world.own = before.own
  | .executed test invocation result world =>
    invocation = Invocation.ofFile settings.root settings.target test.name
      ∧ services.execute invocation before = (result, world)

/-- Each step is what the services make of the world that the step before it
left, and none is taken once the run has been cancelled. -/
def Chained (services : Services σ) (settings : Settings) : World σ → List (Step σ) → Prop
  | _, [] => True
  | before, step :: steps =>
    before.cancelled = false ∧ step.Follows services settings before
      ∧ Chained services settings step.world steps

/-- A run comes from one state to another by taking these steps, and they are
what it writes down. -/
structure Takes (services : Services σ) (settings : Settings) (before : State σ)
    (taken : List (Step σ)) (after : State σ) : Prop where
  steps : after.steps = before.steps ++ taken
  world : after.world = worldAfter before.world taken
  chained : Chained services settings before.world taken

theorem worldAfter_append (before : World σ) (first more : List (Step σ)) :
    worldAfter before (first ++ more) = worldAfter (worldAfter before first) more := by
  induction first generalizing before with
  | nil => rfl
  | cons step first ih => exact ih step.world

theorem Chained.append {before : World σ} {first more : List (Step σ)}
    (hfirst : Chained services settings before first)
    (hmore : Chained services settings (worldAfter before first) more) :
    Chained services settings before (first ++ more) := by
  induction first generalizing before with
  | nil => exact hmore
  | cons step first ih =>
      obtain ⟨hcancel, hstep, hrest⟩ := hfirst
      exact ⟨hcancel, hstep, ih hrest hmore⟩

/-- What comes later in a history starts from the world that was left before. -/
theorem Chained.later {before : World σ} {first more : List (Step σ)}
    (chained : Chained services settings before (first ++ more)) :
    Chained services settings (worldAfter before first) more := by
  induction first generalizing before with
  | nil => exact chained
  | cons step first ih => exact ih chained.2.2

/-- No step is taken. -/
theorem Takes.refl (state : State σ) : Takes services settings state [] state where
  steps := (List.append_nil _).symm
  world := rfl
  chained := trivial

/-- One step is taken. -/
theorem Takes.one {before : State σ} {step : Step σ}
    (hlive : before.world.cancelled = false)
    (hstep : step.Follows services settings before.world) :
    Takes services settings before [step] (before.after step) where
  steps := rfl
  world := rfl
  chained := ⟨hlive, hstep, trivial⟩

theorem Takes.trans {before middle after : State σ} {first more : List (Step σ)}
    (hfirst : Takes services settings before first middle)
    (hmore : Takes services settings middle more after) :
    Takes services settings before (first ++ more) after where
  steps := by rw [hmore.steps, hfirst.steps, List.append_assoc]
  world := by rw [hmore.world, hfirst.world, worldAfter_append]
  chained := hfirst.chained.append (hfirst.world ▸ hmore.chained)

/-- The journal may grow without a step. -/
theorem Takes.quietly {before middle after : State σ} {taken : List (Step σ)}
    (htaken : Takes services settings before taken middle)
    (hsteps : after.steps = middle.steps) (hworld : after.world = middle.world) :
    Takes services settings before taken after where
  steps := hsteps.trans htaken.steps
  world := hworld.trans htaken.world
  chained := htaken.chained

-- =========================================================== the attempt

/-- The steps of an attempt at a conversation, and what comes of it. -/
inductive Tried (settings : Settings) (conversation : Conversation) (before : World σ) :
    List (Step σ) → Except Failure Attempt → Prop where
  /-- The run was cancelled before it asked. -/
  | unasked (stopped : before.cancelled = true) :
      Tried settings conversation before [] (.error .cancelled)
  | unanswered {error world} :
      Tried settings conversation before [.asked conversation.messages (.error error) world]
        (.error (.ofGeneration error))
  /-- The answer holds no test, and that is not to be followed up. -/
  | unusable {raw error world} (strict : settings.repairMalformed = false)
      (noTest : GeneratedTest.ofAnswer raw = .error error) :
      Tried settings conversation before [.asked conversation.messages (.ok raw) world]
        (.error (.artifact error))
  | malformed {raw error world} (lenient : settings.repairMalformed = true)
      (noTest : GeneratedTest.ofAnswer raw = .error error) :
      Tried settings conversation before [.asked conversation.messages (.ok raw) world]
        (.ok (.malformed raw error))
  /-- The run was cancelled before it saved. -/
  | unsaved {raw test} {asked : World σ} (found : GeneratedTest.ofAnswer raw = .ok test)
      (stopped : asked.cancelled = true) :
      Tried settings conversation before [.asked conversation.messages (.ok raw) asked]
        (.error .cancelled)
  | unwritten {raw test error asked saved} (found : GeneratedTest.ofAnswer raw = .ok test) :
      Tried settings conversation before
        [.asked conversation.messages (.ok raw) asked, .saved test (.error error) saved]
        (.error (.save error))
  /-- The run was cancelled before it ran the test. -/
  | unexecuted {raw test written asked} {saved : World σ}
      (found : GeneratedTest.ofAnswer raw = .ok test) (stopped : saved.cancelled = true) :
      Tried settings conversation before
        [.asked conversation.messages (.ok raw) asked, .saved test (.ok written) saved]
        (.error .cancelled)
  | unfinished {raw test written invocation error asked saved executed}
      (found : GeneratedTest.ofAnswer raw = .ok test) :
      Tried settings conversation before
        [.asked conversation.messages (.ok raw) asked, .saved test (.ok written) saved,
          .executed test invocation (.error error) executed]
        (.error (.ofRun error))
  | unjudged {raw test written invocation output error asked saved executed}
      (found : GeneratedTest.ofAnswer raw = .ok test)
      (noVerdict : classify invocation output = .error error) :
      Tried settings conversation before
        [.asked conversation.messages (.ok raw) asked, .saved test (.ok written) saved,
          .executed test invocation (.ok output) executed]
        (.error (.ofRun error))
  | ran {raw test written invocation output verdict asked saved executed}
      (found : GeneratedTest.ofAnswer raw = .ok test)
      (judged : classify invocation output = .ok verdict) :
      Tried settings conversation before
        [.asked conversation.messages (.ok raw) asked, .saved test (.ok written) saved,
          .executed test invocation (.ok output) executed]
        (.ok (.ran test verdict))

-- =========================================================== the actions

/-- An action and what follows it: a failure of the action is the end. -/
theorem Action.bind_run {α β : Type} (action : Action σ α) (next : α → Action σ β)
    (state : State σ) :
    (action >>= next) state = match action state with
      | (.ok a, after) => next a after
      | (.error failure, after) => (.error failure, after) := by
  show ExceptT.bindCont next (action state).1 (action state).2 = _
  rcases action state with ⟨_ | _, after⟩ <;> rfl

theorem mapError_ok {ε δ α : Type} (f : ε → δ) (a : α) :
    (Except.ok a : Except ε α).mapError f = .ok a := rfl

theorem mapError_error {ε δ α : Type} (f : ε → δ) (error : ε) :
    (Except.error error : Except ε α).mapError f = .error (f error) := rfl

theorem checkpoint_run_stopped {state : State σ} (stopped : state.world.cancelled = true) :
    checkpoint state = (.error .cancelled, state) := by
  simp [checkpoint, stopped]

theorem checkpoint_run_live {state : State σ} (live : state.world.cancelled = false) :
    checkpoint state = (.ok (), state) := by
  simp [checkpoint, live]

/-- Asking is one step, and its answer is the service's. -/
theorem ask_takes (services : Services σ) (settings : Settings) (conversation : Conversation)
    {state : State σ} (live : state.world.cancelled = false) :
    ∃ answer after, ask services conversation state = (answer.mapError .ofGeneration, after)
      ∧ Takes services settings state [.asked conversation.messages answer after.world] after :=
  ⟨_, _, rfl, .one live rfl⟩

/-- Saving is one step, and it succeeds when the file is saved. -/
theorem saveTest_takes (services : Services σ) (settings : Settings) (test : GeneratedTest)
    {state : State σ} (live : state.world.cancelled = false) :
    ∃ (result : Except TestFile.SaveError TestFile.Saved) (after : State σ),
      saveTest services settings test state
          = ((result.mapError Failure.save).map fun _ => (), after)
        ∧ Takes services settings state [.saved test result after.world] after := by
  unfold saveTest
  rw [bind_run]
  generalize hsave : TestFile.save services.machine settings.fixer settings.target
    settings.package test state.world.disk = outcome
  obtain ⟨result, disk⟩ := outcome
  let world : World σ :=
    ⟨disk, state.world.cancelled || settings.interrupted state.steps.length, state.world.own⟩
  have htakes : Takes services settings state [.saved test result world]
      (state.after (.saved test result world)) :=
    .one live ⟨hsave, rfl⟩
  cases result with
  | error error => exact ⟨.error error, _, rfl, htakes⟩
  | ok saved => exact ⟨.ok saved, _, rfl, htakes.quietly rfl rfl⟩

/-- Running a test is one step, and the verdict is on what it printed. -/
theorem runTest_takes (services : Services σ) (settings : Settings) (test : GeneratedTest)
    {state : State σ} (live : state.world.cancelled = false) :
    ∃ invocation result after,
      runTest services settings test state
          = ((result.bind (classify invocation)).mapError .ofRun, after)
        ∧ Takes services settings state [.executed test invocation result after.world] after :=
  ⟨_, _, _, rfl, .one live ⟨rfl, rfl⟩⟩

/-- Every attempt goes one of the ways of `Tried`. -/
theorem attempt_tried (services : Services σ) (settings : Settings)
    (conversation : Conversation) (before : State σ) :
    ∃ taken result after,
      attempt services settings conversation before = (result, after)
        ∧ Takes services settings before taken after
        ∧ Tried settings conversation before.world taken result := by
  unfold attempt
  rw [bind_run]
  cases hbefore : before.world.cancelled with
  | true =>
      rw [checkpoint_run_stopped hbefore]
      exact ⟨[], _, _, rfl, .refl before, .unasked hbefore⟩
  | false =>
  rw [checkpoint_run_live hbefore]
  obtain ⟨answer, asked, hask, tasked⟩ :=
    ask_takes services settings conversation hbefore
  simp only [bind_run, hask]
  cases answer with
  | error error => exact ⟨_, _, _, rfl, tasked, .unanswered⟩
  | ok raw =>
  simp only [mapError_ok]
  cases hraw : GeneratedTest.ofAnswer raw with
  | error error =>
      cases hlenient : settings.repairMalformed with
      | true => exact ⟨_, _, _, rfl, tasked, .malformed hlenient hraw⟩
      | false => exact ⟨_, _, _, rfl, tasked, .unusable hlenient hraw⟩
  | ok test =>
  simp only [bind_run]
  cases hasked : asked.world.cancelled with
  | true =>
      rw [checkpoint_run_stopped hasked]
      exact ⟨_, _, _, rfl, tasked, .unsaved hraw hasked⟩
  | false =>
  rw [checkpoint_run_live hasked]
  obtain ⟨written, saved, hsave, tsaved⟩ :=
    saveTest_takes services settings test hasked
  simp only [hsave]
  cases written with
  | error error => exact ⟨_, _, _, rfl, tasked.trans tsaved, .unwritten hraw⟩
  | ok written =>
  simp only [mapError_ok, Except.map]
  cases hsaved : saved.world.cancelled with
  | true =>
      rw [checkpoint_run_stopped hsaved]
      exact ⟨_, _, _, rfl, tasked.trans tsaved, .unexecuted hraw hsaved⟩
  | false =>
  rw [checkpoint_run_live hsaved]
  obtain ⟨invocation, result, executed, hrun, texecuted⟩ :=
    runTest_takes services settings test hsaved
  have tall := (tasked.trans tsaved).trans texecuted
  simp only [hrun]
  cases result with
  | error error => exact ⟨_, _, _, rfl, tall, .unfinished hraw⟩
  | ok output =>
  cases hverdict : classify invocation output with
  | error error =>
      simp only [Except.bind, hverdict, mapError_error]
      exact ⟨_, _, _, rfl, tall, .unjudged hraw hverdict⟩
  | ok verdict =>
      simp only [Except.bind, hverdict, mapError_ok]
      exact ⟨_, _, _, rfl, tall, .ran hraw hverdict⟩

-- ============================================================== the loop

/-- The attempt brought no passing test. -/
def Attempt.Failed : Attempt → Prop
  | malformed _ _ => True
  | ran _ verdict => verdict ≠ .passed

/-- The session with the test that an attempt ran, if it ran one. -/
def Session.noting (session : Session) : Attempt → Session
  | .malformed _ _ => session
  | .ran test verdict => session.ran test verdict

/-- The conversation that follows up an attempt. -/
def Attempt.followedUp (conversation : Conversation) : Attempt → Conversation
  | malformed raw error => conversation.addMalformed raw error
  | ran test verdict => conversation.addRepair test.source verdict

/-- The session in which an attempt is followed up. -/
def Session.after (session : Session) (attempt : Attempt) : Session :=
  (session.noting attempt).next (attempt.followedUp session.conversation)

/-- The course of a session with `left` rounds to spend: the world it starts in,
the steps it takes and how it ends. -/
inductive Course (settings : Settings) :
    (left : Nat) → Session → World σ → List (Step σ) → Except Failure Report → Prop where
  | brokenOff {left session before taken failure}
      (tried : Tried settings session.conversation before taken (.error failure)) :
      Course settings left session before taken (.error failure)
  | passed {left session before taken test}
      (tried : Tried settings session.conversation before taken (.ok (.ran test .passed))) :
      Course settings left session before taken
        (.ok ((session.ran test .passed).report .passed))
  | exhausted {session before taken attempt}
      (tried : Tried settings session.conversation before taken (.ok attempt))
      (failed : attempt.Failed) :
      Course settings 0 session before taken (.ok ((session.noting attempt).report .exhausted))
  | again {left session before taken attempt more result}
      (tried : Tried settings session.conversation before taken (.ok attempt))
      (failed : attempt.Failed)
      (rest : Course settings left (session.after attempt) (worldAfter before taken) more
        result) :
      Course settings (left + 1) session before (taken ++ more) result

/-- An attempt that failed brought no test, or one that did not compile, or one that
did not pass. -/
theorem Attempt.Failed.cases {attempted : Attempt} (failed : attempted.Failed) :
    (∃ raw error, attempted = .malformed raw error)
      ∨ (∃ test diagnostic, attempted = .ran test (.compileFailed diagnostic))
      ∨ ∃ test diagnostic, attempted = .ran test (.runtimeFailed diagnostic) := by
  cases attempted with
  | malformed raw error => exact .inl ⟨raw, error, rfl⟩
  | ran test verdict =>
      cases verdict with
      | passed => exact absurd rfl failed
      | compileFailed diagnostic => exact .inr (.inl ⟨test, diagnostic, rfl⟩)
      | runtimeFailed diagnostic => exact .inr (.inr ⟨test, diagnostic, rfl⟩)

/-- What the loop does about an attempt that failed, with a round to spend: it
says so and goes on, one round later. -/
theorem loop_after_failed (left : Nat) {session : Session} {before tried : State σ}
    {attempted : Attempt} {taken : List (Step σ)}
    (hattempt : attempt services settings session.conversation before = (.ok attempted, tried))
    (htaken : Takes services settings before taken tried) (failed : attempted.Failed) :
    ∃ told, loop services settings (left + 1) session before
          = loop services settings left (session.after attempted) told
        ∧ Takes services settings before taken told := by
  simp only [loop, bind_run, hattempt]
  obtain ⟨_, _, rfl⟩ | ⟨_, _, rfl⟩ | ⟨_, _, rfl⟩ := failed.cases
  all_goals exact ⟨_, rfl, htaken.quietly rfl rfl⟩

/-- What the loop does about an attempt that failed, without a round to spend. -/
theorem loop_last_failed {session : Session} {before tried : State σ}
    {attempted : Attempt} {taken : List (Step σ)}
    (hattempt : attempt services settings session.conversation before = (.ok attempted, tried))
    (htaken : Takes services settings before taken tried) (failed : attempted.Failed) :
    ∃ after, loop services settings 0 session before
          = (.ok ((session.noting attempted).report .exhausted), after)
        ∧ Takes services settings before taken after := by
  simp only [loop, bind_run, hattempt]
  obtain ⟨_, _, rfl⟩ | ⟨_, _, rfl⟩ | ⟨_, _, rfl⟩ := failed.cases
  all_goals exact ⟨_, rfl, htaken.quietly rfl rfl⟩

/-- What the loop does about an attempt that passed. -/
theorem loop_passed (left : Nat) {session : Session} {before tried : State σ}
    {test : GeneratedTest} {taken : List (Step σ)}
    (hattempt : attempt services settings session.conversation before
      = (.ok (.ran test .passed), tried))
    (htaken : Takes services settings before taken tried) :
    ∃ after, loop services settings left session before
          = (.ok ((session.ran test .passed).report .passed), after)
        ∧ Takes services settings before taken after := by
  cases left <;>
    · simp only [loop, bind_run, hattempt]
      exact ⟨_, rfl, htaken.quietly rfl rfl⟩

/-- What the loop does about an attempt that was broken off: it is broken off
with it. -/
theorem loop_brokenOff {left : Nat} {session : Session} {before tried : State σ}
    {failure : Failure}
    (hattempt : attempt services settings session.conversation before
      = (.error failure, tried)) :
    loop services settings left session before = (.error failure, tried) := by
  cases left <;> simp only [loop, bind_run, hattempt]

/-- An attempt that ran a test has passed or failed, and any other has failed. -/
theorem Attempt.passed_or_failed (attempted : Attempt) :
    (∃ test, attempted = .ran test .passed) ∨ attempted.Failed := by
  cases attempted with
  | malformed raw error => exact Or.inr trivial
  | ran test verdict =>
      by_cases hpassed : verdict = .passed
      · exact Or.inl ⟨test, by rw [hpassed]⟩
      · exact Or.inr hpassed

/-- The loop has come to its end with its first attempt, or that has failed. -/
theorem loop_first (left : Nat) (session : Session) (before : State σ) :
    (∃ taken result after, loop services settings left session before = (result, after)
      ∧ Takes services settings before taken after
      ∧ Course settings left session before.world taken result)
    ∨ ∃ taken attempted tried,
      attempt services settings session.conversation before = (.ok attempted, tried)
        ∧ Takes services settings before taken tried
        ∧ Tried settings session.conversation before.world taken (.ok attempted)
        ∧ attempted.Failed := by
  obtain ⟨taken, result, tried, hattempt, htaken, htried⟩ :=
    attempt_tried services settings session.conversation before
  cases result with
  | error failure =>
      exact .inl ⟨taken, _, tried, loop_brokenOff hattempt, htaken, .brokenOff htried⟩
  | ok attempted =>
      rcases attempted.passed_or_failed with ⟨test, rfl⟩ | hfailed
      · obtain ⟨after, hloop, hafter⟩ := loop_passed left hattempt htaken
        exact .inl ⟨taken, _, after, hloop, hafter, .passed htried⟩
      · exact .inr ⟨taken, attempted, tried, hattempt, htaken, htried, hfailed⟩

/-- The loop follows a course. -/
theorem loop_course (left : Nat) (session : Session) (before : State σ) :
    ∃ taken result after, loop services settings left session before = (result, after)
      ∧ Takes services settings before taken after
      ∧ Course settings left session before.world taken result := by
  induction left generalizing session before with
  | zero =>
      rcases loop_first 0 session before with
        hended | ⟨taken, attempted, tried, hattempt, htaken, htried, hfailed⟩
      · exact hended
      · obtain ⟨after, hloop, hafter⟩ := loop_last_failed hattempt htaken hfailed
        exact ⟨taken, _, after, hloop, hafter, .exhausted htried hfailed⟩
  | succ left ih =>
      rcases loop_first (left + 1) session before with
        hended | ⟨taken, attempted, tried, hattempt, htaken, htried, hfailed⟩
      · exact hended
      · obtain ⟨told, hloop, htold⟩ := loop_after_failed left hattempt htaken hfailed
        obtain ⟨more, result, after, hrest, hmore, hcourse⟩ := ih (session.after attempted) told
        refine ⟨taken ++ more, result, after, hloop.trans hrest, htold.trans hmore, ?_⟩
        exact .again htried hfailed (htold.world ▸ hcourse)

/-- Every run follows a course. -/
theorem run_course (services : Services σ) (settings : Settings) (initial : List Char)
    (before : State σ) :
    ∃ taken result after, run services settings initial before = (result, after)
      ∧ Takes services settings before taken after
      ∧ Course settings settings.rounds (.start initial) before.world taken result :=
  loop_course settings.rounds (.start initial) before

end Assay.Repair
