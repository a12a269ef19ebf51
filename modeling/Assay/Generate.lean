/-
The whole way to a passing test: load the module, find the function, gather
what it uses and some examples, and then ask, save, run and repair.
-/
import Assay.Focal.Usage
import Assay.Repair.Loop

namespace Assay

open Repair Repair.Action

/-- What is asked for. -/
structure Request where
  /-- The module's root directory. -/
  repository : String
  file : String
  function : String
  /-- How many levels of bodies the prompt takes in. -/
  depth : Nat
  examples : ExampleTest.Choice
  fixer : TestFile.ImportFixer
  rounds : Nat
  repairMalformed : Bool

namespace Request

variable {σ : Type}

/-- The result of an earlier stage, or its failure. -/
def stage {ε α : Type} (failure : ε → Failure) (result : Except ε α) : Action σ α :=
  fun state => (result.mapError failure, state)

/-- The first prompt for a function. -/
def prompt (target : Focal.Target) (uses : UsageClosure) (examples : List ExampleTest) :
    List Char :=
  Prompt.assemble (examples.map (·.content)) uses target.declaration.text.toList

/-- Generates a test. -/
def generate (services : Services σ) (request : Request) : Action σ Report := do
  let disk := (← get).world.disk
  let module ← stage .load (Source.load disk request.repository)
  let target ← stage .resolve (Focal.resolve module request.file request.function)
  let uses := Focal.uses module target request.depth
  tell .info ("Generating a test for " ++ target.id.text ++ " (" ++ toString uses.size
    ++ " referenced definition(s))")
  let examples ← stage .examples (ExampleTest.select module target request.examples)
  let settings : Settings := {
    root := module.root
    target := testPathFor target.declaration.file.path
    package := target.package.name
    fixer := request.fixer
    rounds := request.rounds
    repairMalformed := request.repairMalformed }
  run services settings (prompt target uses examples)

end Request

end Assay
