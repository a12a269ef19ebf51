/-
What the service is told from round to round.

Every request after the first is the one before it, and one message more: the
failed answer with what was wrong with it. That is what a run is meant to do,
and it does so for every failure that says something. A failure that says
nothing (`Mute`) is followed up by the same request once more, though it costs a
round like any other. `requests_grow_iff` says that this is the only exception,
for the requests and for the number of followups in the report.

A history is read as a list of requests and a list of setbacks, and the two run
in step: the setback at a place is what lies between the request there and the
next.
-/
import Assay.Proofs.Disk
import Assay.Proofs.Repair.Budget
import Assay.Proofs.TestRun.Silence

namespace Assay.Repair

open Prompt TestRun Text

variable {σ : Type} {services : Services σ} {settings : Settings}

-- ============================================================= setbacks

/-- Something that can be followed up: an answer without a test, or a test that
failed when it was run. -/
inductive Setback where
  | unusable (raw : List Char) (error : ArtifactError)
  | failed (test : GeneratedTest) (output : ProcessOutput) (verdict : Verdict)

namespace Setback

/-- What the service is shown of its answer. -/
def shown : Setback → List Char
  | unusable raw _ => trim raw
  | failed test _ _ => trimEnd test.source

/-- What it is told about the answer. -/
def diagnostic : Setback → List Char
  | unusable _ error => error.message.toList
  | failed _ _ verdict => trimEnd (verdict.message?.getD [])

/-- The message is the user's, and quotes the answer and what was wrong. -/
def QuotedIn (setback : Setback) (message : Message) : Prop :=
  message.speaker = .user
    ∧ ∃ lead between tail,
        message.content = lead ++ fenced setback.shown ++ between ++ setback.diagnostic ++ tail

/-- There is nothing to tell: a test failed without a message. -/
def Silent : Setback → Prop
  | unusable _ _ => False
  | failed _ output _ => Mute output

/-- The verdict of a test that failed is the one on its output. -/
def Genuine : Setback → Prop
  | unusable _ _ => True
  | failed _ output verdict =>
    verdict ≠ .passed ∧ ∃ invocation, classify invocation output = .ok verdict

/-- A conversation that is told about a setback. -/
def told (conversation : Conversation) : Setback → Conversation
  | unusable raw error => conversation.addMalformed raw error
  | failed test _ verdict => conversation.addRepair test.source verdict

end Setback

/-- The setback that an answer is, if it holds no test. -/
def Setback.ofAnswer? (raw : List Char) :
    Except ArtifactError GeneratedTest → Option Setback
  | .error error => some (.unusable raw error)
  | .ok _ => none

/-- The setback that a verdict is, if the test failed. -/
def Setback.ofVerdict? (test : GeneratedTest) (output : ProcessOutput) :
    Except RunError Verdict → Option Setback
  | .error _ => none
  | .ok verdict => if verdict = .passed then none else some (.failed test output verdict)

/-- The setback of a step, if it is one. -/
def setback? : Step σ → Option Setback
  | .asked _ (.ok raw) _ => Setback.ofAnswer? raw (GeneratedTest.ofAnswer raw)
  | .executed test invocation (.ok output) _ =>
    Setback.ofVerdict? test output (classify invocation output)
  | _ => none

/-- What went wrong in a history and could be followed up. -/
def setbacks (steps : List (Step σ)) : List Setback := steps.filterMap setback?

/-- The setbacks that another request came after. -/
def followedUp (steps : List (Step σ)) : List Setback :=
  (setbacks steps).take ((requests steps).length - 1)

theorem setbacks_append (first more : List (Step σ)) :
    setbacks (first ++ more) = setbacks first ++ setbacks more :=
  List.filterMap_append ..

/-- Every setback of a history is genuine. -/
theorem genuine_of_mem_setbacks {steps : List (Step σ)} {setback : Setback}
    (hmem : setback ∈ setbacks steps) : setback.Genuine := by
  obtain ⟨step, -, hstep⟩ := List.mem_filterMap.mp hmem
  unfold setback? at hstep
  split at hstep
  · next raw _ =>
      cases hanswer : GeneratedTest.ofAnswer raw with
      | ok test =>
          rw [hanswer] at hstep
          cases hstep
      | error error =>
          rw [hanswer] at hstep
          obtain rfl := Option.some.inj hstep
          trivial
  · next test invocation output _ =>
      cases hverdict : classify invocation output with
      | error error =>
          rw [hverdict] at hstep
          cases hstep
      | ok verdict =>
          rw [hverdict, Setback.ofVerdict?] at hstep
          split at hstep
          · cases hstep
          · next hfailed =>
              obtain rfl := Option.some.inj hstep
              exact ⟨hfailed, invocation, hverdict⟩
  · cases hstep

-- ============================================================ followups

namespace Setback

/-- What is said about a setback, if there is anything to say. -/
def followup? : Setback → Option (List Char)
  | unusable raw error =>
    some ("Your previous answer\n".toList ++ fenced (trim raw) ++ "could not be used: ".toList
      ++ error.message.toList ++ "\nPlease answer with a single Go test function.\n".toList
      ++ instructions)
  | failed test _ verdict => Conversation.repairFollowup? test.source verdict

/-- A conversation that is told about a setback is longer by what is said
about it. -/
theorem told_eq (setback : Setback) (conversation : Conversation) :
    (setback.told conversation).messages
      = conversation.messages ++ setback.followup?.toList.map (⟨.user, ·⟩) := by
  cases setback with
  | unusable raw error => simp [told, followup?, Conversation.addMalformed, Conversation.add,
      Conversation.messages]
  | failed test output verdict =>
      cases hsaid : Conversation.repairFollowup? test.source verdict with
      | none => simp [told, followup?, Conversation.addRepair, hsaid]
      | some followup => simp [told, followup?, Conversation.addRepair, Conversation.add,
          Conversation.messages, hsaid]

theorem followups_told (setback : Setback) (conversation : Conversation) :
    (setback.told conversation).followups.length
      = conversation.followups.length + setback.followup?.toList.length := by
  have hlength := congrArg List.length (setback.told_eq conversation)
  simp only [Conversation.messages, List.cons_append, List.length_cons, List.length_append,
    List.length_map] at hlength
  omega

/-- A followup on a test quotes the test and its message. -/
theorem repairPrompt_quotes (test what diagnostic : List Char) :
    ∃ lead between tail, Conversation.repairPrompt test what diagnostic
      = lead ++ fenced (trimEnd test) ++ between ++ trimEnd diagnostic ++ tail :=
  ⟨"The test you generated\n".toList, what ++ ['\n'] ++ "\x60\x60\x60\n".toList,
    "\n\x60\x60\x60\n".toList ++ "Please fix the test.\n".toList ++ instructions, by
      unfold Conversation.repairPrompt
      simp only [List.append_assoc]⟩

/-- What is said about a setback quotes it. -/
theorem quotedIn_followup {setback : Setback} {followup : List Char}
    (hsaid : setback.followup? = some followup) : setback.QuotedIn ⟨.user, followup⟩ := by
  refine ⟨rfl, ?_⟩
  cases setback with
  | unusable raw error =>
      obtain rfl := Option.some.inj hsaid
      exact ⟨"Your previous answer\n".toList, "could not be used: ".toList,
        "\nPlease answer with a single Go test function.\n".toList ++ instructions,
        by simp [shown, diagnostic]⟩
  | failed test output verdict =>
      simp only [followup?, Conversation.repairFollowup?] at hsaid
      split at hsaid
      · cases hsaid
      all_goals
        split at hsaid
        · cases hsaid
        · obtain rfl := Option.some.inj hsaid
          exact repairPrompt_quotes _ _ _

/-- Nothing is said about a setback exactly when there is nothing to tell. -/
theorem followup?_eq_none_iff {setback : Setback} (genuine : setback.Genuine) :
    setback.followup? = none ↔ setback.Silent := by
  cases setback with
  | unusable raw error => simp [followup?, Silent]
  | failed test output verdict =>
      obtain ⟨hfailed, invocation, hverdict⟩ := genuine
      cases verdict with
      | passed => exact absurd rfl hfailed
      | compileFailed diagnostic | runtimeFailed diagnostic =>
          have hblank := classify_blank_iff hverdict rfl
          simp only [followup?, Conversation.repairFollowup?, Silent, ← hblank]
          split <;> simp_all

end Setback

-- ========================================================= one attempt

/-- An attempt asks for an answer to its conversation, if it asks at all. -/
theorem Tried.requests_subset {conversation : Conversation} {before : World σ}
    {taken : List (Step σ)} {result : Except Failure Attempt}
    (tried : Tried settings conversation before taken result) {messages : List Message}
    (hmem : messages ∈ requests taken) : messages = conversation.messages := by
  cases tried <;> simp [requests] at hmem <;> exact hmem

/-- An attempt that failed is one setback, and the conversation that follows it
up is told about that. -/
theorem Tried.setback {conversation : Conversation} {before : World σ}
    {taken : List (Step σ)} {attempted : Attempt}
    (tried : Tried settings conversation before taken (.ok attempted))
    (failed : attempted.Failed) :
    ∃ setback : Setback, setbacks taken = [setback]
      ∧ attempted.followedUp conversation = setback.told conversation := by
  cases tried with
  | @malformed raw error world lenient noTest =>
      refine ⟨.unusable raw error, ?_, rfl⟩
      simp only [setbacks, List.filterMap_cons, setback?, noTest, Setback.ofAnswer?,
        List.filterMap_nil]
  | @ran raw test written invocation output verdict asked saved executed found judged =>
      refine ⟨.failed test output verdict, ?_, rfl⟩
      simp only [setbacks, List.filterMap_cons, setback?, found, judged, Setback.ofAnswer?,
        Setback.ofVerdict?, if_neg failed, List.filterMap_nil]

-- ====================================================== several attempts

/-- The first request is the conversation that the session begins with. -/
theorem Course.requests_first {left : Nat} {session : Session} {before : World σ}
    {taken : List (Step σ)} {result : Except Failure Report}
    (course : Course settings left session before taken result) {messages : List Message}
    (hfirst : (requests taken)[0]? = some messages) :
    messages = session.conversation.messages := by
  cases course with
  | brokenOff tried => exact tried.requests_subset (List.mem_of_getElem? hfirst)
  | passed tried => exact tried.requests_subset (List.mem_of_getElem? hfirst)
  | exhausted tried failed => exact tried.requests_subset (List.mem_of_getElem? hfirst)
  | again tried failed rest =>
      rw [requests_append, tried.requests_eq] at hfirst
      exact (Option.some.inj hfirst).symm

/-- A request is the one before it, and what there is to say about the setback
in between. -/
theorem Course.requests_next {left : Nat} {session : Session} {before : World σ}
    {taken : List (Step σ)} {result : Except Failure Report}
    (course : Course settings left session before taken result) {i : Nat}
    {earlier later : List Message} (hearlier : (requests taken)[i]? = some earlier)
    (hlater : (requests taken)[i + 1]? = some later) :
    ∃ setback : Setback, (setbacks taken)[i]? = some setback
      ∧ later = earlier ++ setback.followup?.toList.map (⟨.user, ·⟩) := by
  induction course generalizing i with
  | brokenOff tried =>
      have hlength := tried.requests_length_le
      rw [List.getElem?_eq_none (by omega)] at hlater
      cases hlater
  | passed tried | exhausted tried failed =>
      rw [tried.requests_eq, List.getElem?_eq_none (by simp)] at hlater
      cases hlater
  | @again left session before taken attempted more result tried failed rest ih =>
      obtain ⟨setback, hsetback, htold⟩ := tried.setback failed
      rw [requests_append, tried.requests_eq, List.singleton_append] at hearlier hlater
      rw [setbacks_append, hsetback, List.singleton_append]
      rw [List.getElem?_cons_succ] at hlater
      cases i with
      | zero =>
          refine ⟨setback, rfl, ?_⟩
          obtain rfl := Option.some.inj hearlier
          rw [rest.requests_first hlater]
          show (attempted.followedUp session.conversation).messages = _
          rw [htold, Setback.told_eq]
      | succ i =>
          rw [List.getElem?_cons_succ] at hearlier ⊢
          exact ih hearlier hlater

/-- Every request but the last has a setback. -/
theorem Course.length_followedUp {left : Nat} {session : Session} {before : World σ}
    {taken : List (Step σ)} {result : Except Failure Report}
    (course : Course settings left session before taken result) :
    (followedUp taken).length = (requests taken).length - 1 := by
  have hlength : (requests taken).length ≤ (setbacks taken).length + 1 := by
    induction course with
    | brokenOff tried =>
        have := tried.requests_length_le
        omega
    | passed tried | exhausted tried failed =>
        rw [tried.requests_eq]
        exact Nat.le_add_left _ _
    | again tried failed rest ih =>
        obtain ⟨setback, hsetback, -⟩ := tried.setback failed
        rw [requests_append, tried.requests_eq, setbacks_append, hsetback, List.length_append,
          List.length_append, List.length_singleton, List.length_singleton]
        omega
  rw [followedUp, List.length_take]
  omega

/-- The setback of an attempt is followed up once there is another request. -/
theorem followedUp_append {first more : List (Step σ)} {messages : List Message}
    {setback : Setback} (hfirst : requests first = [messages])
    (hsetback : setbacks first = [setback]) (hmore : requests more ≠ []) :
    followedUp (first ++ more) = setback :: followedUp more := by
  have hpos := List.length_pos_iff.mpr hmore
  have hlength : (requests (first ++ more)).length - 1 = (requests more).length - 1 + 1 := by
    rw [requests_append, hfirst, List.length_append, List.length_singleton]
    omega
  rw [followedUp, hlength, setbacks_append, hsetback, List.singleton_append, List.take_succ_cons,
    followedUp]

/-- A report shows what was said about the setbacks that were followed up. -/
theorem Course.followups_length {left : Nat} {session : Session} {before : World σ}
    {taken : List (Step σ)} {result : Except Failure Report}
    (course : Course settings left session before taken result) :
    ∀ report, result = .ok report →
      report.conversation.followups.length = session.conversation.followups.length
        + ((followedUp taken).filterMap Setback.followup?).length := by
  induction course with
  | brokenOff tried => exact fun report hreport => nomatch hreport
  | passed tried =>
      rintro report ⟨rfl⟩
      rw [followedUp, tried.requests_eq]
      rfl
  | @exhausted session before taken attempted tried failed =>
      rintro report ⟨rfl⟩
      rw [followedUp, tried.requests_eq]
      cases attempted <;> rfl
  | @again left session before taken attempted more result tried failed rest ih =>
      intro report hreport
      obtain ⟨setback, hsetback, htold⟩ := tried.setback failed
      have hasked : requests more ≠ [] := by
        obtain ⟨hasked, hcounted, -⟩ := rest.accounted report hreport
        intro hnone
        rw [hnone, List.length_nil] at hasked
        omega
      have hconversation : (session.after attempted).conversation
          = setback.told session.conversation := htold
      rw [ih report hreport, hconversation, Setback.followups_told,
        followedUp_append tried.requests_eq hsetback hasked]
      cases hsaid : setback.followup? with
      | none => simp [hsaid]
      | some followup =>
          simp only [List.filterMap_cons, hsaid, Option.toList_some, List.length_cons,
            List.length_nil]
          omega

-- ============================================================== the run

/-- The service is told about every failure: each request after the first is the
one before it and one message of the user, which quotes the failed answer and
what was wrong with it. -/
def TellsEveryFailure (steps : List (Step σ)) : Prop :=
  ∀ i earlier later, (requests steps)[i]? = some earlier → (requests steps)[i + 1]? = some later →
    ∃ setback message, (setbacks steps)[i]? = some setback
      ∧ later = earlier ++ [message] ∧ setback.QuotedIn message

/-- No setback that was followed up left the run without anything to say. -/
def NoneSilent (steps : List (Step σ)) : Prop :=
  ∀ setback ∈ followedUp steps, ¬ setback.Silent

/-- The setbacks that were followed up, by the requests they lie between. -/
theorem followedUp_getElem?_eq_some_iff {steps : List (Step σ)} {i : Nat} {setback : Setback} :
    (followedUp steps)[i]? = some setback
      ↔ i + 1 < (requests steps).length ∧ (setbacks steps)[i]? = some setback := by
  rw [followedUp, List.getElem?_take]
  split
  · next hi => exact ⟨fun hplace => ⟨by omega, hplace⟩, And.right⟩
  · next hi =>
      constructor
      · exact fun hplace => nomatch hplace
      · exact fun ⟨hlater, _⟩ => absurd hlater (by omega)

/-- The service is told about every failure exactly when none is silent. -/
theorem Course.tellsEveryFailure_iff {left : Nat} {session : Session} {before : World σ}
    {taken : List (Step σ)} {result : Except Failure Report}
    (course : Course settings left session before taken result) :
    TellsEveryFailure taken ↔ NoneSilent taken := by
  constructor
  · intro htells setback hmem hsilent
    obtain ⟨i, hplace⟩ := List.mem_iff_getElem?.mp hmem
    obtain ⟨hi, hsetback⟩ := followedUp_getElem?_eq_some_iff.mp hplace
    have hearlier := List.getElem?_eq_getElem (Nat.lt_of_succ_lt hi)
    have hlater := List.getElem?_eq_getElem hi
    obtain ⟨-, message, -, hgrown, -⟩ := htells i _ _ hearlier hlater
    obtain ⟨met, hmet, hsaid⟩ := course.requests_next hearlier hlater
    -- The place holds one setback, and its request cannot both grow and stay.
    obtain rfl : met = setback := Option.some.inj (hmet.symm.trans hsetback)
    have hgenuine := genuine_of_mem_setbacks (List.mem_of_getElem? hsetback)
    rw [(Setback.followup?_eq_none_iff hgenuine).mpr hsilent, hgrown] at hsaid
    have hlength := congrArg List.length hsaid
    simp at hlength
  · intro hspoken i earlier later hearlier hlater
    obtain ⟨setback, hsetback, hsaid⟩ := course.requests_next hearlier hlater
    obtain ⟨hi, -⟩ := List.getElem?_eq_some_iff.mp hlater
    have hmem := List.mem_of_getElem? (followedUp_getElem?_eq_some_iff.mpr ⟨hi, hsetback⟩)
    have hgenuine := genuine_of_mem_setbacks (List.mem_of_getElem? hsetback)
    obtain ⟨followup, hfollowup⟩ := Option.ne_none_iff_exists'.mp
      (mt (Setback.followup?_eq_none_iff hgenuine).mp (hspoken setback hmem))
    rw [hfollowup] at hsaid
    exact ⟨setback, ⟨.user, followup⟩, hsetback, hsaid, Setback.quotedIn_followup hfollowup⟩

/-- As much is said as there was to follow up exactly when none is silent. -/
private theorem length_followups_eq_iff {steps : List (Step σ)} :
    ((followedUp steps).filterMap Setback.followup?).length = (followedUp steps).length
      ↔ NoneSilent steps := by
  rw [List.filterMap_length_eq_length]
  refine forall₂_congr fun setback hmem => ?_
  have hgenuine := genuine_of_mem_setbacks (List.mem_of_mem_take hmem)
  rw [← Setback.followup?_eq_none_iff hgenuine, Option.isSome_iff_ne_none]

/-- A report counts a followup for each of its rounds exactly when no setback
of the run is silent. -/
theorem Course.followups_eq_rounds_iff {left : Nat} {session : Session} {before : World σ}
    {taken : List (Step σ)} {result : Except Failure Report}
    (course : Course settings left session before taken result)
    (fresh : session.conversation.followups = []) (unspent : session.round = 0) :
    ∀ report, result = .ok report →
      (report.conversation.followups.length = report.outcome.rounds ↔ NoneSilent taken) := by
  intro report hreport
  have hsaid := course.followups_length report hreport
  have hrounds : (followedUp taken).length = report.outcome.rounds := by
    obtain ⟨hasked, -⟩ := course.accounted report hreport
    rw [course.length_followedUp]
    omega
  rw [hsaid, fresh, ← hrounds, List.length_nil, Nat.zero_add, length_followups_eq_iff]

/-- The service is told about every failure, and a report counts a followup for
each of its rounds, exactly when no test failed without a message. -/
theorem requests_grow_iff (services : Services σ) (settings : Settings) (initial : List Char)
    (before : State σ) :
    ∃ taken result after,
      run services settings initial before = (result, after)
        ∧ Takes services settings before taken after
        ∧ (TellsEveryFailure taken ↔ NoneSilent taken)
        ∧ ∀ report, result = .ok report →
            (report.conversation.followups.length = report.outcome.rounds
              ↔ NoneSilent taken) := by
  obtain ⟨taken, result, after, hrun, htakes, hcourse⟩ :=
    run_course services settings initial before
  exact ⟨taken, result, after, hrun, htakes, hcourse.tellsEveryFailure_iff,
    hcourse.followups_eq_rounds_iff rfl rfl⟩

-- ========================================================== a mute test

/-- A service that answers with one test, whatever it is told. The test fails, and all
that it logs is where. -/
def muteServices : Services Unit where
  answer _ world := (.ok "func TestAdd(t *testing.T) \x7b\x7d".toList, world)
  execute _ world := (.ok
    { success := false
      code := some 1
      stdout := "--- FAIL: TestAdd (0.00s)\n    calc_test.go:3: \nFAIL\n".toList
      stderr := [] }, world)
  machine _ disk := (.error .notFound, disk)

/-- A run that may follow up one failure. -/
def muteSettings : Settings where
  root := "/"
  target := "/calc_test.go"
  package := "calc"
  fixer := .disabled
  rounds := 1
  repairMalformed := false

/-- The state that it begins with. -/
def muteStart : State Unit := ⟨⟨.empty, false, ()⟩, [], []⟩

/-- The prompt of that run. -/
def mutePrompt : List Char := "Write a test.".toList

/-- The failure costs the round, but nothing is told about it: the second request is the
first one again. -/
theorem requests_repeat_mute :
    ∃ report after, run muteServices muteSettings mutePrompt muteStart = (.ok report, after)
      ∧ Takes muteServices muteSettings muteStart after.steps after
      ∧ requests after.steps = [[⟨.system, mutePrompt⟩], [⟨.system, mutePrompt⟩]]
      ∧ ¬ TellsEveryFailure after.steps
      ∧ report.outcome.rounds = 1 ∧ report.conversation.followups = [] := by
  obtain ⟨hreport, hrequests⟩ :
      (run muteServices muteSettings mutePrompt muteStart).1.toOption.any (fun report =>
        report.outcome.rounds == 1 && report.conversation.followups == []) = true
      ∧ requests (run muteServices muteSettings mutePrompt muteStart).2.steps
        = [[⟨.system, mutePrompt⟩], [⟨.system, mutePrompt⟩]] := by
    decide +kernel
  simp only [Option.any_eq_true, Bool.and_eq_true, beq_iff_eq] at hreport
  obtain ⟨report, hresult, hrounds, hfollowups⟩ := hreport
  obtain ⟨taken, result, after, hrun, htakes, -⟩ :=
    run_course muteServices muteSettings mutePrompt muteStart
  obtain rfl : after.steps = taken := htakes.steps
  rw [hrun] at hresult hrequests
  obtain rfl : result = .ok report := eq_ok_of_toOption hresult
  refine ⟨report, after, hrun, htakes, hrequests, fun htells => ?_, hrounds, hfollowups⟩
  have hfirst : (requests after.steps)[0]? = some [⟨.system, mutePrompt⟩] :=
    congrArg (·[0]?) hrequests
  have hsecond : (requests after.steps)[1]? = some [⟨.system, mutePrompt⟩] :=
    congrArg (·[1]?) hrequests
  obtain ⟨-, message, -, hgrown, -⟩ := htells 0 _ _ hfirst hsecond
  have hlength := congrArg List.length hgrown
  simp at hlength

end Assay.Repair
