/-
What a running script knows and has done, and the expansion of its words.
-/
import Assay.Process
import Assay.Shell.Script

namespace Assay.Shell

-- ================================================================= state

/-- Why the commands that follow are not run: the script has come to its end, or
a loop or a function is being left. -/
inductive Ending where
  | exited (code : Nat)
  | killed
  | brokeLoop
  | continuedLoop
  | returned
deriving DecidableEq

/-- The state of a running script. What it printed is kept in pieces, the last
piece first. -/
structure State where
  disk : Disk
  directory : String
  name : List Char
  /-- The line that complaints name. -/
  line : Nat
  arguments : List (List Char)
  bindings : List (List Char × List Char)
  functions : List (List Char × Script)
  input : List UInt8
  stdout : List (List UInt8)
  stderr : List (List UInt8)
  status : Nat
  ending : Option Ending

namespace State

/-- The state with more printed. -/
def print (state : State) (bytes : List UInt8) : State :=
  { state with stdout := bytes :: state.stdout }

/-- The state with more printed as text. -/
def say (state : State) (text : List Char) : State := state.print (Text.Utf8.encode text)

/-- The state with a complaint and a status. -/
def complain (state : State) (text : String) (status : Nat) : State :=
  { state with
    stderr := Text.Utf8.encode (text.toList ++ ['\n']) :: state.stderr
    status := status }

/-- The state with a complaint of the shell itself. -/
def object (state : State) (text : String) (status : Nat) : State :=
  state.complain (String.ofList state.name ++ ": " ++ toString state.line ++ ": " ++ text) status

/-- The state with a status. -/
def finish (state : State) (status : Nat) : State := { state with status := status }

/-- The state with an ending taken back. -/
def settled (state : State) (ending : Ending) : State :=
  if state.ending == some ending then { state with ending := none } else state

/-- A path seen from the script's directory. -/
def path (state : State) (path : List Char) : String :=
  Path.push state.directory (String.ofList path)

/-- The number that stands for the running script. -/
def ownNumber : List Char := "4242".toList

/-- The values of a parameter: several for all arguments, one for anything
else. -/
def parameterNamed (state : State) (name : List Char) : List (List Char) :=
  match name with
  | ['@'] | ['*'] => state.arguments
  | ['#'] => [(toString state.arguments.length).toList]
  | ['?'] => [(toString state.status).toList]
  | ['$'] => [ownNumber]
  | ['0'] => [state.name]
  | ['P', 'W', 'D'] => [state.directory.toList]
  | name =>
    match (String.ofList name).toNat? with
    | some n => [(state.arguments[n - 1]?).getD []]
    | none => [((state.bindings.find? (·.1 == name)).map (·.2)).getD []]

/-- The values of a parameter that may carry an operator: its length, or a text
that stands in where it is empty or where it is not. -/
def parameter (state : State) (text : List Char) : List (List Char) :=
  match text with
  | '#' :: c :: name =>
    [(toString (((state.parameterNamed (c :: name)).headD []).length)).toList]
  | text =>
    let name := if isNameChar (text.headD ' ') then text.takeWhile isNameChar else text.take 1
    let values := state.parameterNamed name
    let isEmpty := values.all List.isEmpty
    match text.drop name.length with
    | ':' :: '-' :: other => if isEmpty then [other] else values
    | '-' :: other => if isEmpty then [other] else values
    | ':' :: '+' :: other => if isEmpty then [[]] else [other]
    | '+' :: other => if isEmpty then [[]] else [other]
    | _ => values

/-- The state with a variable set. -/
def assign (state : State) (name value : List Char) : State :=
  { state with bindings := (name, value) :: state.bindings.filter (·.1 != name) }

end State

-- ============================================================ arithmetic

/-- The binary operators by how tightly they bind, each with its meaning. -/
def operators : List (List Char × Nat × (Int → Int → Int)) :=
  let truth (b : Bool) : Int := if b then 1 else 0
  [("<=", 1, fun a b => truth (a ≤ b)), (">=", 1, fun a b => truth (b ≤ a)),
    ("==", 1, fun a b => truth (a = b)), ("!=", 1, fun a b => truth (a ≠ b)),
    ("<", 1, fun a b => truth (a < b)), (">", 1, fun a b => truth (b < a)),
    ("+", 2, fun a b => a + b), ("-", 2, fun a b => a - b), ("*", 3, fun a b => a * b),
    ("/", 3, Int.tdiv), ("%", 3, Int.tmod)].map fun (sign, level, apply) =>
      (sign.toList, level, apply)

mutual

/-- An operand, and the text after it. -/
def operand (state : State) : (rounds : Nat) → List Char → Int × List Char
  | 0, text => (0, text)
  | _, [] => (0, [])
  | rounds + 1, c :: rest =>
    if c.isWhitespace || c = '$' then operand state rounds rest
    else if c = '-' then
      let (value, rest) := operand state rounds rest
      (-value, rest)
    else if c = '(' then
      let (value, rest) := operation state rounds 1 rest
      (value, (rest.dropWhile (· ≠ ')')).drop 1)
    else if c.isDigit then
      (Int.ofNat ((String.ofList ((c :: rest).takeWhile Char.isDigit)).toNat?.getD 0),
        (c :: rest).dropWhile Char.isDigit)
    else if isNameChar c then
      let name := (c :: rest).takeWhile isNameChar
      let value := String.ofList ((state.parameter name).headD [])
      ((value.toInt?).getD 0, (c :: rest).dropWhile isNameChar)
    else (0, rest)

/-- Operands joined by operators that bind at least as tightly as `least`. -/
def operation (state : State) : (rounds least : Nat) → List Char → Int × List Char
  | 0, _, text => (0, text)
  | rounds + 1, least, text =>
    let (left, rest) := operand state rounds text
    operationFrom state rounds least left rest

/-- An operation whose left operand has been read. -/
def operationFrom (state : State) : (rounds least : Nat) → Int → List Char → Int × List Char
  | 0, _, left, text => (left, text)
  | rounds + 1, least, left, text =>
    let text := text.dropWhile Char.isWhitespace
    match operators.find? fun (sign, level, _) =>
        decide (least ≤ level) && Text.beginsWith sign text with
    | none => (left, text)
    | some (sign, level, apply) =>
      let (right, rest) := operation state rounds (level + 1) (text.drop sign.length)
      operationFrom state rounds least (apply left right) rest

end

/-- The value of an expression. -/
def evaluate (state : State) (expression : List Char) : Int :=
  (operation state (4 * expression.length + 4) 1 expression).1

-- ============================================================= expansion

/-- What expansion makes of a part: text, kept whole or split at blanks, and
the borders between fields. -/
inductive Fragment where
  | text (chars : List Char)
  | border
deriving DecidableEq

/-- Fragments of a value that is split at blanks. -/
def splitFragments : List Char → List Fragment
  | [] => []
  | c :: rest =>
    if c.isWhitespace then .border :: splitFragments rest
    else .text [c] :: splitFragments rest

/-- The fragments of values, with borders between them. -/
def fragments (quoted : Bool) (values : List (List Char)) : List Fragment :=
  ((values.map fun value => if quoted then [.text value] else splitFragments value).intersperse
    [.border]).flatten

/-- The fields that fragments make. `current` is the field begun, if one is. -/
def fields : (current : Option (List Char)) → List Fragment → List (List Char)
  | current, [] => current.toList
  | current, .border :: rest => current.toList ++ fields none rest
  | current, .text chars :: rest => fields (some (current.getD [] ++ chars)) rest

/-- Output without the line breaks at its end. -/
def withoutBreaks (text : List Char) : List Char := (text.reverse.dropWhile (· = '\n')).reverse

/-- The fragments of a part; `run` gives the output of a script. -/
def partFragments (run : List Char → State → List Char × State) (part : Part) (state : State) :
    List Fragment × State :=
  match part with
  | .literal chars _ => ([.text chars], state)
  | .parameter name quoted =>
    let values := state.parameter name
    (fragments quoted (if name == ['*'] && quoted then [Text.join [' '] values] else values), state)
  | .arithmetic expression _ => ([.text (toString (evaluate state expression)).toList], state)
  | .output script quoted =>
    let (text, state) := run script state
    (fragments quoted [withoutBreaks text], state)

/-- The fields of words. -/
def expand (run : List Char → State → List Char × State) (words : List Word) (state : State) :
    List (List Char) × State :=
  words.foldl (fun (found, state) word =>
    let (pieces, state) := word.foldl (fun (pieces, state) part =>
      let (more, state) := partFragments run part state
      (pieces ++ more, state)) ([], state)
    (found ++ fields none pieces, state)) ([], state)

end Assay.Shell
