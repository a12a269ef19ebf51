/-
The generation services that can be asked for a test.
-/
import Assay.Text.Blank

namespace Assay.Service

/-- A generation service. -/
inductive Provider where
  | openAI
  | anthropic
deriving DecidableEq

namespace Provider

/-- The name a user gives. -/
def name : Provider → String
  | openAI => "openai"
  | anthropic => "anthropic"

/-- The environment variable that holds the key. -/
def keyVariable : Provider → String
  | openAI => "OPENAI_API_KEY"
  | anthropic => "ANTHROPIC_API_KEY"

/-- The model that is asked when none is named. -/
def defaultModel : Provider → String
  | openAI => "gpt-4o"
  | anthropic => "claude-sonnet-4-5"

/-- A name as it is compared: without blanks around it, and with ASCII letters
in lower case. -/
def normalized (name : String) : String :=
  String.ofList ((Text.trim name.toList).map Char.toLower)

/-- The service with a name; otherwise the name that is unknown. -/
def ofName (name : String) : Except String Provider :=
  let name := normalized name
  if name == openAI.name then .ok openAI
  else if name == anthropic.name then .ok anthropic
  else .error name

end Provider

end Assay.Service
