/-
The configuration of a run, put together from the command line, the environment
and the defaults file. What the command line says wins over the environment,
and that over the file; only the service's key is never on the command line.
-/
import Assay.Config.Arguments
import Assay.Config.Defaults
import Assay.Generate
import Assay.Service.Account

namespace Assay

/-- The variables of the environment. -/
abbrev Environment := String → Option String

/-- What a run needs to know. -/
structure Config where
  repository : String
  file : String
  function : String
  rounds : Nat
  testCount : Nat
  ownTest : Bool
  seed : Option Nat
  depth : Nat
  go : String
  fixer : TestFile.ImportFixer
  repairMalformed : Bool
  verbose : Bool
  account : Service.Account
deriving DecidableEq

namespace Config

/-- The environment variable that names a model. -/
def modelVariable : String := "GOTESTGEN_MODEL"

/-- An option that has to be given. -/
def required (setting : Setting) (value : Option String) : Except ConfigError String :=
  match value with
  | some value => .ok value
  | none => .error (.missing setting.name)

/-- The service that is asked for, which is the first one where none is named. -/
def providerOf (arguments : Arguments) (defaults : Defaults) :
    Except ConfigError Service.Provider :=
  match arguments.provider.or defaults.provider with
  | none => .ok .openAI
  | some name => (Service.Provider.ofName name).mapError .unknownProvider

/-- The key of a service. A blank variable is as good as none. -/
def keyOf (provider : Service.Provider) (environment : Environment) (defaults : Defaults)
    (file : String) : Except ConfigError String :=
  match ((environment provider.keyVariable).filter (!Text.allBlank ·.toList)).or defaults.key with
  | some key => .ok key
  | none => .error (.missingKey provider file)

/-- The model that is asked. -/
def modelOf (provider : Service.Provider) (arguments : Arguments) (environment : Environment)
    (defaults : Defaults) : String :=
  ((arguments.model.or (environment modelVariable)).or defaults.model).getD provider.defaultModel

/-- The import fixer: the words of a command line, unless there are none or none
are wanted. -/
def fixerOf (arguments : Arguments) : TestFile.ImportFixer :=
  match Text.words arguments.importsTool.toList with
  | program :: words =>
    if arguments.noImports then .disabled
    else .command (String.ofList program) (words.map String.ofList)
  | [] => .disabled

/-- Puts a configuration together. `file` is where the defaults came from. -/
def resolve (arguments : Arguments) (defaults : Defaults) (file : String)
    (environment : Environment) : Except ConfigError Config := do
  let repository ← required .repository arguments.repository
  let path ← required .file arguments.file
  let function ← required .function (arguments.function.filter (!Text.allBlank ·.toList))
  let provider ← providerOf arguments defaults
  let key ← keyOf provider environment defaults file
  return {
    repository := repository
    file := path
    function := function
    rounds := arguments.rounds
    testCount := arguments.testCount
    ownTest := arguments.ownTest
    seed := arguments.seed
    depth := max arguments.depth 1
    go := arguments.go
    fixer := fixerOf arguments
    repairMalformed := arguments.repairMalformed
    verbose := arguments.verbose
    account := {
      provider := provider
      model := modelOf provider arguments environment defaults
      key := key
      baseUrl := arguments.baseUrl.or defaults.baseUrl } }

/-- The run that is asked for, with a seed where none was given. -/
def request (config : Config) (fallback : UInt64) : Request where
  repository := config.repository
  file := config.file
  function := config.function
  depth := config.depth
  examples := ⟨config.testCount, config.ownTest, (config.seed.map Nat.toUInt64).getD fallback⟩
  fixer := config.fixer
  rounds := config.rounds
  repairMalformed := config.repairMalformed

end Config

end Assay
