/-
The program as a function: from the words of a command line, the environment
and a disk to what is printed and how it ends. Services and programs that are
started come in from outside.
-/
import Assay.Config.Resolve
import Assay.Service.Exchange
import Assay.TestRun.GoTool

namespace Assay.Program

-- ================================================================= texts

/-- The program's name. -/
def name : String := "gotestgen"

/-- The program's name and version. -/
def versionLine : String := name ++ " 0.1.0\n"

/-- How a setting is written in the help. -/
def settingLine (setting : Setting) : String :=
  "      --" ++ setting.name ++ (match setting.kind with
    | .number => " <number>\n"
    | .path => " <path>\n"
    | .text => " <text>\n")

/-- The help. -/
def help : String :=
  "Generate a passing Go unit test for one function, repairing it against \x60go test\x60 failures.\n\n"
    ++ "Usage: " ++ name ++ " [OPTIONS]\n\nOptions:\n"
    ++ String.join (Setting.all.map settingLine)
    ++ String.join (Switch.all.map fun switch => "      --" ++ switch.name ++ "\n")

/-- What is said about a command line that is not understood. -/
def misuse : String :=
  "error: unexpected argument\n\nUsage: " ++ name ++ " [OPTIONS]\n\nFor more information, try '--help'.\n"

-- =============================================================== running

/-- How the program ends: its exit code, what it printed, what it printed where
errors go, and the digests of its requests, if it was to log them. -/
structure Ending where
  code : Nat
  output : String
  errors : String
  digests : List (List Char)
deriving DecidableEq

/-- The directory of a user's configuration. -/
def configDirectory (environment : Environment) : String :=
  let absolute (path : String) : Bool := path.toList.head? == some '/'
  match (environment "XDG_CONFIG_HOME").filter absolute, environment "HOME" with
  | some directory, _ => directory
  | none, some home => if home.isEmpty then "." else Path.push home ".config"
  | none, none => "."

/-- The file of a user's defaults. -/
def defaultsFile (environment : Environment) : String :=
  Path.push (Path.push (configDirectory environment) name) "config.toml"

/-- What the program works with: a way to reach generation services, a machine
for the programs it starts, and the directory that relative paths start from. -/
structure Surroundings (σ : Type) where
  transport : Service.Transport σ
  machine : Machine
  directory : String

/-- The services of a run: the configured account, and the Go tool. -/
def services {σ : Type} (surroundings : Surroundings σ) (config : Config) : Repair.Services σ where
  answer := config.account.ask surroundings.transport
  execute := fun invocation world =>
    let (result, disk) := TestRun.goTest surroundings.machine config.go world.cancelled invocation
      world.disk
    (result, { world with disk })
  machine := surroundings.machine

/-- What is printed about a failure. -/
def complaint (failure : Failure) : String := "error: " ++ failure.message ++ "\n"

/-- The digests of the requests among steps. -/
def digests {σ : Type} (steps : List (Repair.Step σ)) : List (List Char) :=
  steps.filterMap fun
    | .asked messages _ _ => some (Service.digest messages)
    | _ => none

/-- The configuration that a command line, an environment and a disk make. -/
def configure (arguments : Arguments) (environment : Environment) (disk : Disk) :
    Except ConfigError Config := do
  let file := defaultsFile environment
  Config.resolve arguments (← Defaults.load disk file) file environment

/-- The run that a configuration asks for, seen from a directory. -/
def requestFrom (directory : String) (config : Config) (chance : UInt64) : Request :=
  let request := config.request chance
  { request with repository := Path.push directory request.repository }

/-- Runs the program. `chance` is the seed where the command line names none. -/
def run {σ : Type} (surroundings : Surroundings σ) (words : List String)
    (environment : Environment) (chance : UInt64) (world : Repair.World σ) :
    Ending × Repair.World σ :=
  match Arguments.ofWords words with
  | .error .help => (⟨0, help, "", []⟩, world)
  | .error .version => (⟨0, versionLine, "", []⟩, world)
  | .error .misuse => (⟨2, "", misuse, []⟩, world)
  | .ok arguments =>
    match configure arguments environment world.disk with
    | .error error => (⟨1, "", complaint (.config error), []⟩, world)
    | .ok config =>
      let (outcome, state) :=
        (requestFrom surroundings.directory config chance).generate (services surroundings config) ⟨world, [], []⟩
      let output := printedJournal state.journal
      let logged := if config.verbose then digests state.steps else []
      match outcome with
      | .ok _ => (⟨0, output, "", logged⟩, state.world)
      | .error failure => (⟨1, output, complaint failure, logged⟩, state.world)

end Assay.Program
