/-
The repair loop: ask for a test, save it, run it, and ask again with what went
wrong, as long as rounds are left. The loop recurses on the rounds that are
left, so it asks at most once more than there are rounds.
-/
import Assay.Repair.Action

namespace Assay.Repair

open Prompt TestRun Repair.Action

-- =========================================================== the report

/-- How a run ended, and after how many rounds. -/
inductive Outcome where
  | passed (rounds : Nat)
  | exhausted (rounds : Nat)
deriving DecidableEq

/-- The rounds of an outcome. -/
def Outcome.rounds : Outcome → Nat
  | passed rounds => rounds
  | exhausted rounds => rounds

/-- What a run carries from round to round: the conversation, and the last test
that was run with its verdict. -/
structure Session where
  conversation : Conversation
  round : Nat
  last : Option (GeneratedTest × Verdict)

/-- What is left of a run that ended by itself. -/
structure Report where
  outcome : Outcome
  conversation : Conversation
  last : Option (GeneratedTest × Verdict)

/-- The session before anything was asked. -/
def Session.start (initial : List Char) : Session := ⟨.start initial, 0, none⟩

/-- The session one round later, with another conversation. -/
def Session.next (session : Session) (conversation : Conversation) : Session :=
  { session with conversation, round := session.round + 1 }

/-- The session in which a test was run last. -/
def Session.ran (session : Session) (test : GeneratedTest) (verdict : Verdict) : Session :=
  { session with last := some (test, verdict) }

/-- The report on a session that ends. -/
def Session.report (session : Session) (outcome : Nat → Outcome) : Report :=
  ⟨outcome session.round, session.conversation, session.last⟩

-- ========================================================= one attempt

/-- What comes of asking once. -/
inductive Attempt where
  | malformed (raw : List Char) (error : ArtifactError)
  | ran (test : GeneratedTest) (verdict : Verdict)

variable {σ : Type} (services : Services σ) (settings : Settings)

/-- Asks for a test, saves it and runs it, and looks before each of these
whether the run has been cancelled. -/
def attempt (conversation : Conversation) : Action σ Attempt := do
  checkpoint
  let raw ← ask services conversation
  match GeneratedTest.ofAnswer raw with
  | .error error =>
    if settings.repairMalformed then return .malformed raw error else throw (.artifact error)
  | .ok test =>
    checkpoint
    saveTest services settings test
    checkpoint
    let verdict ← runTest services settings test
    return .ran test verdict

-- ============================================================= the loop

/-- Ends a session without a passing test. -/
def exhaust (session : Session) : Action σ Report := do
  tell .warn ("Round budget exhausted after " ++ toString session.round
    ++ " repair round(s); no passing test")
  return session.report .exhausted

/-- Ends a session with a passing test. -/
def succeed (session : Session) : Action σ Report := do
  tell .success "Test passed"
  return session.report .passed

/-- Attempts until one passes, with `left` rounds to spend on failures. -/
def loop : (left : Nat) → Session → Action σ Report
  | 0, session => do
    match ← attempt services settings session.conversation with
    | .malformed _ error =>
      tell .warn ("Unusable generator output: " ++ error.message)
      exhaust session
    | .ran test .passed => succeed (session.ran test .passed)
    | .ran test verdict => exhaust (session.ran test verdict)
  | left + 1, session => do
    match ← attempt services settings session.conversation with
    | .malformed raw error =>
      tell .warn ("Unusable generator output (" ++ error.message ++ "), asking again")
      loop left (session.next (session.conversation.addMalformed raw error))
    | .ran test .passed => succeed (session.ran test .passed)
    | .ran test verdict =>
      let session := (session.ran test verdict).next
        (session.conversation.addRepair test.source verdict)
      tell .warn ("Test failed, attempting repair (" ++ toString session.round ++ "/"
        ++ toString settings.rounds ++ ")")
      loop left session

/-- A repair run that begins with a prompt. -/
def run (initial : List Char) : Action σ Report :=
  loop services settings settings.rounds (.start initial)

end Assay.Repair
