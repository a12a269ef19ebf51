/-
A user's defaults for the generation service, kept in a file.
-/
import Assay.Config.Error
import Assay.Toml.Document

namespace Assay

/-- What a defaults file says. -/
structure Defaults where
  provider : Option String
  model : Option String
  key : Option String
  baseUrl : Option String
deriving DecidableEq

namespace Defaults

/-- No defaults. -/
def none : Defaults := ⟨.none, .none, .none, .none⟩

/-- The text under a key, if there is any; nothing else may be there. -/
def textUnder (entries : Toml.Entries) (key : String) : Option (Option String) :=
  match Toml.item? key.toList entries with
  | .none => some .none
  | some (.text chars) => some (some (String.ofList chars))
  | some _ => .none

/-- The defaults in a document. Other keys are free. -/
def ofEntries? (entries : Toml.Entries) : Option Defaults := do
  return ⟨← textUnder entries "provider", ← textUnder entries "model",
    ← textUnder entries "api_key", ← textUnder entries "base_url"⟩

/-- The defaults in a file. A file that is not there says nothing. -/
def load (disk : Disk) (file : String) : Except ConfigError Defaults :=
  match disk.readText file with
  | .error .notFound => .ok none
  | .error fault => .error (.unreadable file fault)
  | .ok text => match (Toml.parse? text).bind ofEntries? with
    | some defaults => .ok defaults
    | .none => .error (.malformed file)

end Defaults

end Assay
