/-
Why a service gives no answer.
-/

namespace Assay.Service

/-- A failed request. -/
inductive GenerationError where
  /-- The request did not get through. -/
  | transport
  | status (code : Nat) (body : List Char)
  | response (detail : String)
  /-- The answer never came. -/
  | disconnected
  | cancelled
deriving DecidableEq

/-- How a failed request is reported. -/
def GenerationError.message : GenerationError → String
  | .transport => "request failed"
  | .status code body => "service returned " ++ toString code ++ ": " ++ String.ofList body
  | .response detail => "unexpected response shape: " ++ detail
  | .disconnected => "worker thread exited without a response"
  | .cancelled => "cancelled"

end Assay.Service
