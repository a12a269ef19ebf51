/-
A conversation with the generation service: the first prompt, and a followup
for each answer that did not do.
-/
import Assay.Artifact
import Assay.Prompt.Assemble
import Assay.TestRun.Verdict

namespace Assay.Prompt

open Text TestRun

/-- Who a message is from. -/
inductive Speaker where
  | system
  | user
deriving DecidableEq

/-- A message to the service. -/
structure Message where
  speaker : Speaker
  content : List Char
deriving DecidableEq

/-- The first prompt and the followups, in order. -/
structure Conversation where
  initial : List Char
  followups : List (List Char)
deriving DecidableEq

namespace Conversation

/-- A conversation that only begins. -/
def start (initial : List Char) : Conversation := ⟨initial, []⟩

/-- The conversation with one more followup. -/
def add (conversation : Conversation) (followup : List Char) : Conversation :=
  { conversation with followups := conversation.followups ++ [followup] }

/-- The messages to send. -/
def messages (conversation : Conversation) : List Message :=
  ⟨.system, conversation.initial⟩ :: conversation.followups.map (⟨.user, ·⟩)

/-- A followup that shows a test and what became of it. -/
def repairPrompt (test what diagnostic : List Char) : List Char :=
  "The test you generated\n".toList ++ fenced (trimEnd test) ++ what ++ ['\n']
    ++ "\x60\x60\x60\n".toList ++ trimEnd diagnostic ++ "\n\x60\x60\x60\n".toList
    ++ "Please fix the test.\n".toList ++ instructions

/-- The followup on a test's verdict. There is none on a pass, and none without
a message to show. -/
def repairFollowup? (test : List Char) (verdict : Verdict) : Option (List Char) :=
  match verdict with
  | .passed => none
  | .compileFailed diagnostic =>
    if allBlank diagnostic then none
    else some (repairPrompt test "failed with the compile error:".toList diagnostic)
  | .runtimeFailed diagnostic =>
    if allBlank diagnostic then none
    else some (repairPrompt test "failed with the message:".toList diagnostic)

/-- Tells the service what became of its test. -/
def addRepair (conversation : Conversation) (test : List Char) (verdict : Verdict) :
    Conversation :=
  match repairFollowup? test verdict with
  | some followup => conversation.add followup
  | none => conversation

/-- Tells the service that its answer holds no test. -/
def addMalformed (conversation : Conversation) (raw : List Char) (error : ArtifactError) :
    Conversation :=
  conversation.add
    ("Your previous answer\n".toList ++ fenced (trim raw) ++ "could not be used: ".toList
      ++ error.message.toList ++ "\nPlease answer with a single Go test function.\n".toList
      ++ instructions)

end Conversation

end Assay.Prompt
