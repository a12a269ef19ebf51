/-
The command line: the options there are, and how words are read as options.

An option has a long name; it takes its value from behind an equals sign or
from the next word, unless that begins with a hyphen. Nothing may be given
twice, and there are no words beside the options. Words are read in order, so
a request for help counts only when nothing before it is wrong.
-/
import Assay.Text.Numeral
import Assay.Text.Search

namespace Assay

open Text

-- =============================================================== options

/-- An option with a value. -/
inductive Setting where
  | repository | file | function | rounds | testCount | seed | depth | provider | model
  | baseUrl | go | importsTool
deriving DecidableEq

/-- An option without a value. -/
inductive Switch where
  | ownTest | noImports | repairMalformed | verbose | help | version
deriving DecidableEq

/-- What kind of value a setting takes. -/
inductive ValueKind where
  /-- Any text. -/
  | text
  /-- A text that is not empty. -/
  | path
  /-- A number of 64 bits. -/
  | number
deriving DecidableEq

namespace Setting

/-- Every setting. -/
def all : List Setting :=
  [repository, file, function, rounds, testCount, seed, depth, provider, model, baseUrl, go,
    importsTool]

/-- The long name of a setting. -/
def name : Setting → String
  | repository => "repo"
  | file => "func-path"
  | function => "func"
  | rounds => "rounds"
  | testCount => "test-count"
  | seed => "seed"
  | depth => "depth"
  | provider => "provider"
  | model => "model"
  | baseUrl => "base-url"
  | go => "go"
  | importsTool => "imports-tool"

/-- The kind of value a setting takes. -/
def kind : Setting → ValueKind
  | repository | file => .path
  | rounds | testCount | seed | depth => .number
  | function | provider | model | baseUrl | go | importsTool => .text

/-- The setting with a long name. -/
def ofName? (name : List Char) : Option Setting := all.find? (·.name.toList == name)

end Setting

namespace Switch

/-- Every switch. -/
def all : List Switch := [ownTest, noImports, repairMalformed, verbose, help, version]

/-- The long name of a switch. -/
def name : Switch → String
  | ownTest => "use-func-test-file"
  | noImports => "no-imports"
  | repairMalformed => "repair-malformed"
  | verbose => "verbose"
  | help => "help"
  | version => "version"

/-- The switch with a long name. -/
def ofName? (name : List Char) : Option Switch := all.find? (·.name.toList == name)

/-- The switch with a letter of its own. -/
def ofLetter? : Char → Option Switch
  | 'v' => some verbose
  | 'h' => some help
  | 'V' => some version
  | _ => none

end Switch

-- ================================================================ values

/-- The number that a value writes: digits, with a plus sign or without, and no
more than 64 bits. -/
def countOf? (value : List Char) : Option Nat :=
  let digits := match value with
    | '+' :: rest => rest
    | value => value
  (decimal? digits).filter (· < Nat.pow 2 64)

/-- A value is of a kind. -/
def ValueKind.admits : ValueKind → List Char → Bool
  | text, _ => true
  | path, value => !value.isEmpty
  | number, value => (countOf? value).isSome

/-- A word can be the value of the option before it. A hyphen alone can. -/
def isValue (word : List Char) : Bool := word == ['-'] || word.head? != some '-'

-- =============================================================== reading

/-- Why a command line is not taken. -/
inductive Refusal where
  | help
  | version
  | misuse
deriving DecidableEq

/-- The options read so far. -/
structure Given where
  values : List (Setting × List Char)
  switches : List Switch

namespace Given

/-- Nothing was given. -/
def none : Given := ⟨[], []⟩

/-- The value of a setting. -/
def value? (given : Given) (setting : Setting) : Option (List Char) :=
  (given.values.find? (·.1 == setting)).map (·.2)

/-- Takes the value of a setting. -/
def give (given : Given) (setting : Setting) (value : List Char) : Except Refusal Given :=
  if (given.value? setting).isSome || !setting.kind.admits value then .error .misuse
  else .ok { given with values := given.values ++ [(setting, value)] }

/-- Takes a switch. -/
def turn (given : Given) (switch : Switch) : Except Refusal Given :=
  match switch with
  | .help => .error .help
  | .version => .error .version
  | switch =>
    if given.switches.contains switch then .error .misuse
    else .ok { given with switches := given.switches ++ [switch] }

/-- Takes switches by their letters. -/
def turnLetters (given : Given) : List Char → Except Refusal Given
  | [] => .ok given
  | letter :: letters =>
    match Switch.ofLetter? letter with
    | some switch => (given.turn switch).bind (·.turnLetters letters)
    | .none => .error .misuse

/-- Takes the words of a command line. Two hyphens end the options. -/
def takeWords (given : Given) : List (List Char) → Except Refusal Given
  | [] => .ok given
  | ['-', '-'] :: rest => if rest.isEmpty then .ok given else .error .misuse
  | ('-' :: '-' :: option) :: rest =>
    match splitOnce? ['='] option with
    | some (name, value) =>
      match Setting.ofName? name with
      | some setting => (given.give setting value).bind (·.takeWords rest)
      | .none => .error .misuse
    | .none =>
      match Setting.ofName? option, Switch.ofName? option, rest with
      | some setting, _, value :: rest =>
        if isValue value then (given.give setting value).bind (·.takeWords rest)
        else .error .misuse
      | .none, some switch, rest => (given.turn switch).bind (·.takeWords rest)
      | _, _, _ => .error .misuse
  | ('-' :: letter :: letters) :: rest =>
    (given.turnLetters (letter :: letters)).bind (·.takeWords rest)
  | _ :: _ => .error .misuse

end Given

-- ============================================================= arguments

/-- What a user asks for on the command line. -/
structure Arguments where
  repository : Option String
  file : Option String
  function : Option String
  rounds : Nat
  testCount : Nat
  ownTest : Bool
  seed : Option Nat
  depth : Nat
  provider : Option String
  model : Option String
  baseUrl : Option String
  go : String
  importsTool : String
  noImports : Bool
  repairMalformed : Bool
  verbose : Bool
deriving DecidableEq

namespace Arguments

/-- The arguments that options make, with defaults for those not given. -/
def ofGiven (given : Given) : Arguments :=
  let text (setting : Setting) : Option String := (given.value? setting).map String.ofList
  let number (setting : Setting) : Option Nat := (given.value? setting).bind countOf?
  { repository := text .repository
    file := text .file
    function := text .function
    rounds := (number .rounds).getD 0
    testCount := (number .testCount).getD 0
    ownTest := given.switches.contains .ownTest
    seed := number .seed
    depth := (number .depth).getD 1
    provider := text .provider
    model := text .model
    baseUrl := text .baseUrl
    go := (text .go).getD "go"
    importsTool := (text .importsTool).getD "goimports -w"
    noImports := given.switches.contains .noImports
    repairMalformed := given.switches.contains .repairMalformed
    verbose := given.switches.contains .verbose }

/-- Reads the words of a command line, the program's name not among them. -/
def ofWords (words : List String) : Except Refusal Arguments :=
  (Given.none.takeWords (words.map (·.toList))).map ofGiven

end Arguments

end Assay
