/-
What goes to a generation service and what comes back: the request that a
conversation makes, and the answer in a reply.

The two services differ in where the first prompt goes, in the headers that
carry the key, and in where a reply holds its text.
-/
import Assay.Hash.Sha256
import Assay.Json.Parse
import Assay.Prompt.Conversation
import Assay.Repair.Action
import Assay.Service.Account

namespace Assay.Service

open Prompt

-- ============================================================== requests

/-- A request to post. -/
structure Post where
  url : String
  headers : List (String × String)
  body : Json

/-- Where a service is found. -/
def Provider.url : Provider → String
  | .openAI => "https://api.openai.com/v1/chat/completions"
  | .anthropic => "https://api.anthropic.com/v1/messages"

/-- The name a speaker has in requests. -/
def speakerName : Speaker → String
  | .system => "system"
  | .user => "user"

/-- A message in a request. -/
def messageJson (message : Message) : Json :=
  .object [("role".toList, .ofText (speakerName message.speaker)),
    ("content".toList, .string message.content)]

/-- What a service is told when the first prompt is all there is. -/
def opening : Message := ⟨.user, "Write the test.".toList⟩

/-- The first prompt among messages. -/
def systemContent (messages : List Message) : List Char :=
  ((messages.find? (·.speaker == .system)).map (·.content)).getD []

/-- The followups among messages; there is always one to send. -/
def userMessages (messages : List Message) : List Message :=
  match messages.filter (·.speaker == .user) with
  | [] => [opening]
  | followups => followups

/-- How long an answer may be, where a service has to be told. -/
def answerLimit : List Char := ['4', '0', '9', '6']

/-- The body of a request. -/
def Account.body (account : Account) (messages : List Message) : Json :=
  match account.provider with
  | .openAI => .object [("model".toList, .ofText account.model),
      ("messages".toList, .array (messages.map messageJson))]
  | .anthropic => .object [("model".toList, .ofText account.model),
      ("max_tokens".toList, .number answerLimit),
      ("system".toList, .string (systemContent messages)),
      ("messages".toList, .array ((userMessages messages).map messageJson))]

/-- The headers of a request. -/
def Account.headers (account : Account) : List (String × String) :=
  ("content-type", "application/json") :: match account.provider with
    | .openAI => [("authorization", "Bearer " ++ account.key)]
    | .anthropic => [("x-api-key", account.key), ("anthropic-version", "2023-06-01")]

/-- The request that messages make. -/
def Account.post (account : Account) (messages : List Message) : Post :=
  ⟨account.baseUrl.getD account.provider.url, account.headers, account.body messages⟩

/-- A digest of the messages, by which a request is known in logs. -/
def digest (messages : List Message) : List Char :=
  Hash.hexadecimal (Hash.sha256 (Text.Utf8.encode
    ("v1-gotestgen".toList ++ messages.flatMap (·.content))))

-- =============================================================== replies

/-- A reply to a request. -/
structure Reply where
  status : Nat
  body : List UInt8

/-- A reply of these kinds has no body, whatever follows it. -/
def Reply.content (reply : Reply) : List UInt8 :=
  if reply.status = 204 || reply.status = 304 then [] else reply.body

/-- The text in a reply's body. -/
def Provider.textIn? (provider : Provider) (body : Json) : Option (List Char) :=
  match provider with
  | .openAI => (((body.member? "choices").bind (·.element? 0)).bind (·.member? "message")).bind
      (·.member? "content") |>.bind (·.string?)
  | .anthropic => ((body.member? "content").bind (·.element? 0)).bind (·.member? "text")
      |>.bind (·.string?)

/-- The answer in a reply. -/
def Provider.read (provider : Provider) (reply : Reply) :
    Except GenerationError (List Char) :=
  let text := Text.Utf8.decodeLossy reply.content
  if reply.status < 200 || 300 ≤ reply.status then .error (.status reply.status text)
  else match Json.parse? text with
    | none => .error (.response "not a JSON text")
    | some body => match provider.textIn? body with
      | some answer => .ok answer
      | none => .error (.response (provider.name ++ " response has no text content"))

-- ============================================================== exchange

/-- Carries a request to a service and brings the reply, if it gets through. -/
abbrev Transport (σ : Type) := Post → Repair.World σ → Option Reply × Repair.World σ

/-- Asks a service. Nothing is sent once the run has been cancelled. -/
def Account.ask {σ : Type} (account : Account) (transport : Transport σ)
    (messages : List Message) (world : Repair.World σ) :
    Except GenerationError (List Char) × Repair.World σ :=
  if world.cancelled then (.error .cancelled, world)
  else match transport (account.post messages) world with
    | (none, world) => (.error .transport, world)
    | (some reply, world) => (account.provider.read reply, world)

end Assay.Service
