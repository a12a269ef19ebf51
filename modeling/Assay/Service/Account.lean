/-
Who is asked for a test, and with what key.
-/
import Assay.Service.Provider

namespace Assay.Service

/-- An account with a generation service. -/
structure Account where
  provider : Provider
  model : String
  key : String
  /-- Where requests go, if not to the service's own address. -/
  baseUrl : Option String
deriving DecidableEq

end Assay.Service
