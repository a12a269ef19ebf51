/-
The steps a repair run is made of: asking for a test, saving it and running it.
Each works on the state of the run, and a failed step keeps what the state has
become by then.

The services around the run are free to do anything to the world they share
with it, to its disk included, and the user may interrupt the run at any time.
The run writes down every step it takes with what came of it, so what happened
can be read off the state in the end.
-/
import Assay.Failure
import Assay.Journal
import Assay.Prompt.Conversation

namespace Assay.Repair

open Prompt TestRun

-- ============================================================ the world

/-- What the run shares with its services. `own` is theirs alone. -/
structure World (σ : Type) where
  disk : Disk
  cancelled : Bool
  own : σ

/-- Who a run works with: a service that answers messages, a tool that runs
tests, and a machine that runs the import fixer. -/
structure Services (σ : Type) where
  answer : List Message → World σ → Except Service.GenerationError (List Char) × World σ
  execute : Invocation → World σ → Except RunError ProcessOutput × World σ
  machine : Machine

/-- What is fixed for a run. -/
structure Settings where
  /-- The module's root directory. -/
  root : String
  /-- The test file, and the name of its package. -/
  target : String
  package : String
  fixer : TestFile.ImportFixer
  /-- How many failures may be followed up. -/
  rounds : Nat
  /-- An answer without a test counts as a failure that can be followed up. -/
  repairMalformed : Bool
  /-- Whether the user interrupts the run while it saves a test, by the number of
  steps taken before. An interruption at another time reaches the services first,
  which leave it in the world. -/
  interrupted : Nat → Bool := fun _ => false

/-- A step that was taken: what it was about, what came of it, and the world
that it left. -/
inductive Step (σ : Type) where
  | asked (messages : List Message) (answer : Except Service.GenerationError (List Char))
    (world : World σ)
  | saved (test : GeneratedTest) (result : Except TestFile.SaveError TestFile.Saved)
    (world : World σ)
  | executed (test : GeneratedTest) (invocation : Invocation)
    (result : Except RunError ProcessOutput) (world : World σ)

/-- The world that a step left. -/
def Step.world {σ : Type} : Step σ → World σ
  | asked _ _ world | saved _ _ world | executed _ _ _ world => world

/-- The state of a run. -/
structure State (σ : Type) where
  world : World σ
  journal : List JournalLine
  steps : List (Step σ)

/-- The state once a step is taken and written down. -/
def State.after {σ : Type} (state : State σ) (step : Step σ) : State σ :=
  { state with world := step.world, steps := state.steps ++ [step] }

/-- An action of a run. -/
abbrev Action (σ α : Type) := ExceptT Failure (StateM (State σ)) α

namespace Action

variable {σ : Type}

-- ============================================================ the steps

/-- Ends the run when it has been cancelled. -/
def checkpoint : Action σ Unit := fun state =>
  (if state.world.cancelled then .error .cancelled else .ok (), state)

/-- Tells the user something. -/
def tell (level : Level) (text : String) : Action σ Unit := fun state =>
  (.ok (), { state with journal := state.journal ++ [⟨level, text⟩] })

/-- Asks the service for an answer to a conversation. -/
def ask (services : Services σ) (conversation : Conversation) : Action σ (List Char) :=
  fun state =>
    let (answer, world) := services.answer conversation.messages state.world
    (answer.mapError .ofGeneration, state.after (.asked conversation.messages answer world))

/-- Saves a test in the test file. -/
def saveTest (services : Services σ) (settings : Settings) (test : GeneratedTest) :
    Action σ Unit := do
  let saved ← fun state =>
    let (result, disk) := TestFile.save services.machine settings.fixer settings.target
      settings.package test state.world.disk
    let cancelled := state.world.cancelled || settings.interrupted state.steps.length
    (result.mapError .save, state.after (.saved test result { state.world with disk, cancelled }))
  tell .info ("Saved " ++ test.name ++ " to " ++ saved.path ++ " (+" ++ toString saved.changes.added
    ++ " -" ++ toString saved.changes.removed ++ ")")

/-- Runs a saved test. -/
def runTest (services : Services σ) (settings : Settings) (test : GeneratedTest) :
    Action σ Verdict :=
  fun state =>
    let invocation := Invocation.ofFile settings.root settings.target test.name
    let (result, world) := services.execute invocation state.world
    ((result.bind (classify invocation)).mapError .ofRun,
      state.after (.executed test invocation result world))

end Action

end Assay.Repair
