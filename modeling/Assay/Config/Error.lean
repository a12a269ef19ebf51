/-
What can be wrong with a configuration.
-/
import Assay.Disk
import Assay.Service.Provider

namespace Assay

/-- Why there is no configuration. -/
inductive ConfigError where
  /-- An option that has to be given was not. -/
  | missing (option : String)
  /-- Nothing supplies a key; the file that could is named. -/
  | missingKey (provider : Service.Provider) (file : String)
  | unknownProvider (name : String)
  | unreadable (file : String) (fault : Disk.Fault)
  /-- The file is no document, or a default in it is no text. -/
  | malformed (file : String)
deriving DecidableEq

/-- How a wrong configuration is reported. -/
def ConfigError.message : ConfigError → String
  | .missing option => "missing required flag: --" ++ option
  | .missingKey provider file => provider.name ++ " API key not set (export "
      ++ provider.keyVariable ++ " or add api_key to " ++ file ++ ")"
  | .unknownProvider name =>
    "unknown provider \x60" ++ name ++ "\x60 (expected \x60openai\x60 or \x60anthropic\x60)"
  | .unreadable file fault => "reading " ++ file ++ ": " ++ fault.message
  | .malformed file => "parsing " ++ file ++ ": TOML parse error"

end Assay
