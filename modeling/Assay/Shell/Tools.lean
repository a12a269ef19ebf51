/-
The programs a script can call without more ado: those that print, test and
move files about.
-/
import Assay.Shell.State
import Assay.Text.Blank

namespace Assay.Shell

open Text

/-- A program: what it does with its arguments. -/
abbrev Tool := List (List Char) → State → State

-- ============================================================== printing

/-- The value of octal digits. -/
def octal (digits : List Char) : Nat := digits.foldl (fun n c => n * 8 + (c.toNat - '0'.toNat)) 0

/-- An octal digit. -/
def isOctalDigit (c : Char) : Bool := '0' ≤ c && c ≤ '7'

/-- The byte for a short escape. -/
def shortEscape? : Char → Option UInt8
  | 'n' => some 10
  | 't' => some 9
  | 'r' => some 13
  | 'a' => some 7
  | 'b' => some 8
  | 'f' => some 12
  | 'v' => some 11
  | '\x5c' => some 92
  | _ => none

/-- The bytes of a text with escapes. `\c` ends the output. Octal escapes take
up to three digits, or four when they begin with a zero and `zero` is set. -/
def escaped (zero : Bool) : (rounds : Nat) → List Char → List UInt8
  | 0, _ => []
  | _, [] => []
  | rounds + 1, '\x5c' :: c :: rest =>
    let digits := if zero && c = '0' then (rest.take 3).takeWhile isOctalDigit
      else ((c :: rest).take 3).takeWhile isOctalDigit
    if c = 'c' then []
    else if zero && c = '0' then
      (octal digits).toUInt8 :: escaped zero rounds (rest.drop digits.length)
    else if !zero && !digits.isEmpty then
      (octal digits).toUInt8 :: escaped zero rounds ((c :: rest).drop digits.length)
    else match shortEscape? c with
      | some byte => byte :: escaped zero rounds rest
      | none => Utf8.encode ['\x5c', c] ++ escaped zero rounds rest
  | rounds + 1, c :: rest => Utf8.encode [c] ++ escaped zero rounds rest

/-- The bytes that a text with escapes stands for. -/
def unescape (zero : Bool) (text : List Char) : List UInt8 := escaped zero text.length text

/-- Prints its arguments on a line. -/
def echo : Tool := fun arguments state =>
  let (arguments, ending) := match arguments with
    | ['-', 'n'] :: rest => (rest, [])
    | arguments => (arguments, ['\n'])
  (state.print (unescape true (join [' '] arguments) ++ Utf8.encode ending)).finish 0

/-- A number, as formats and tests read it. -/
def number (text : List Char) : Int := ((String.ofList text).toInt?).getD 0

/-- The bytes that a conversion makes of an argument. -/
def converted (conversion : Char) (argument : List Char) : List UInt8 :=
  match conversion with
  | 'b' => unescape true argument
  | 'd' | 'i' | 'u' => Utf8.encode (toString (number argument)).toList
  | 'o' => Utf8.encode (Nat.toDigits 8 (number argument).toNat)
  | 'x' => Utf8.encode (Nat.toDigits 16 (number argument).toNat)
  | 'X' => Utf8.encode ((Nat.toDigits 16 (number argument).toNat).map Char.toUpper)
  | 'c' => Utf8.encode (argument.take 1)
  | _ => Utf8.encode argument

/-- Bytes filled up to a width. -/
def widened (flags : List Char) (width : Nat) (bytes : List UInt8) : List UInt8 :=
  let filler : UInt8 := if flags.contains '0' && !flags.contains '-' then 48 else 32
  let filling := List.replicate (width - bytes.length) filler
  if flags.contains '-' then bytes ++ filling else filling ++ bytes

/-- Prints a format once; answers the arguments it has not used. -/
def formatted : (rounds : Nat) → List Char → List (List Char) → List UInt8 × List (List Char)
  | 0, _, arguments => ([], arguments)
  | _, [], arguments => ([], arguments)
  | rounds + 1, '%' :: '%' :: rest, arguments =>
    let (bytes, left) := formatted rounds rest arguments
    (37 :: bytes, left)
  | rounds + 1, '%' :: c :: rest, arguments =>
    let flags := (c :: rest).takeWhile fun c => ['-', '0', '+', '#', ' '].contains c
    let sized := (c :: rest).drop flags.length
    let width := (number (sized.takeWhile Char.isDigit)).toNat
    match sized.dropWhile Char.isDigit with
    | conversion :: rest =>
      let shown := converted conversion (arguments.headD [])
      let (bytes, left) := formatted rounds rest (arguments.drop 1)
      (widened flags width shown ++ bytes, left)
    | [] => ([], arguments)
  | rounds + 1, '\x5c' :: c :: rest, arguments =>
    let digits := ((c :: rest).take 3).takeWhile isOctalDigit
    let length := max 1 digits.length
    let (bytes, left) := formatted rounds ((c :: rest).drop length) arguments
    (unescape false ('\x5c' :: (c :: rest).take length) ++ bytes, left)
  | rounds + 1, c :: rest, arguments =>
    let (bytes, left) := formatted rounds rest arguments
    (Utf8.encode [c] ++ bytes, left)

/-- Prints a format as often as the arguments ask for. -/
def formattedAll : (rounds : Nat) → List Char → List (List Char) → List UInt8
  | 0, _, _ => []
  | rounds + 1, format, arguments =>
    let (bytes, left) := formatted format.length format arguments
    if left.isEmpty || left.length = arguments.length then bytes
    else bytes ++ formattedAll rounds format left

/-- Prints its arguments by a format. -/
def printf : Tool := fun arguments state =>
  match arguments with
  | format :: rest => (state.print (formattedAll (rest.length + 1) format rest)).finish 0
  | [] => state.complain "printf: usage: printf format [arguments]" 2

-- =============================================================== testing

/-- What is at a path. -/
def entryAt (state : State) (path : List Char) : Option Entry :=
  (state.disk.locate? (state.path path)).bind state.disk.entry?

/-- Whether a condition holds. -/
def holds (state : State) : (rounds : Nat) → List (List Char) → Bool
  | 0, _ => false
  | _, [] => false
  | _, [text] => !text.isEmpty
  | rounds + 1, ['!'] :: rest => !holds state rounds rest
  | _, [['-', 'z'], text] => text.isEmpty
  | _, [['-', 'n'], text] => !text.isEmpty
  | _, [['-', 'e'], path] => (entryAt state path).isSome
  | _, [['-', 'f'], path] => match entryAt state path with
    | some (.file _) => true
    | _ => false
  | _, [['-', 'd'], path] => match entryAt state path with
    | some .directory => true
    | _ => false
  | _, [['-', 's'], path] => match entryAt state path with
    | some (.file content) => !content.bytes.isEmpty
    | _ => false
  | _, [left, operator, right] =>
    match String.ofList operator with
    | "=" | "==" => left == right
    | "!=" => left != right
    | "-eq" => number left == number right
    | "-ne" => number left != number right
    | "-lt" => decide (number left < number right)
    | "-le" => decide (number left ≤ number right)
    | "-gt" => decide (number right < number left)
    | "-ge" => decide (number right ≤ number left)
    | _ => false
  | _, _ => false

/-- Tests a condition. -/
def test : Tool := fun arguments state =>
  state.finish (if holds state (arguments.length + 1) arguments then 0 else 1)

/-- Tests a condition in brackets. -/
def bracket : Tool := fun arguments => test arguments.dropLast

-- ================================================================= files

/-- The arguments that are no options. -/
def operands (arguments : List (List Char)) : List (List Char) :=
  arguments.filter fun argument => argument.head? ≠ some '-' || argument.length ≤ 1

/-- One of the arguments is an option with this letter. -/
def hasOption (letter : Char) (arguments : List (List Char)) : Bool :=
  arguments.any fun argument => argument.head? == some '-' && argument.contains letter

/-- A complaint about a file. -/
def complainAbout (state : State) (tool path : String) (fault : Disk.Fault) : State :=
  let reason := match fault with
    | .notFound => "No such file or directory"
    | .notDirectory => "Not a directory"
    | .isDirectory => "Is a directory"
    | .notText => "Invalid argument"
  state.complain (tool ++ ": " ++ path ++ ": " ++ reason) 1

/-- Prints files, or what comes in when none is named. -/
def cat : Tool := fun arguments state =>
  match operands arguments with
  | [] => (state.print state.input).finish 0
  | paths => paths.foldl (fun state path =>
      if path == ['-'] then state.print state.input
      else match state.disk.read (state.path path) with
        | .ok content => state.print content.bytes
        | .error fault => complainAbout state "cat" (String.ofList path) fault) (state.finish 0)

/-- Takes files away. -/
def rm : Tool := fun arguments state =>
  (operands arguments).foldl (fun state path =>
    match state.disk.locate (state.path path) with
    | .ok location => { state with disk := state.disk.remove location }
    | .error fault =>
      if hasOption 'f' arguments then state
      else complainAbout state "rm: cannot remove" ("'" ++ String.ofList path ++ "'") fault)
    (state.finish 0)

/-- Writes a file, or complains. -/
def writeFile (tool : String) (state : State) (path : List Char) (content : Content) : State :=
  match state.disk.write (state.path path) content with
  | .ok disk => { state with disk }
  | .error fault => complainAbout state tool (String.ofList path) fault

/-- Copies a file. -/
def cp : Tool := fun arguments state =>
  match operands arguments with
  | [source, target] => match state.disk.read (state.path source) with
    | .ok content => writeFile "cp" (state.finish 0) target content
    | .error fault => complainAbout state "cp" (String.ofList source) fault
  | _ => state.complain "cp: missing file operand" 1

/-- Moves a file. -/
def mv : Tool := fun arguments state =>
  match operands arguments with
  | [source, target] =>
    let copied := cp [source, target] state
    if copied.status = 0 then rm [source] copied else copied
  | _ => state.complain "mv: missing file operand" 1

/-- Makes empty files where there are none. -/
def touch : Tool := fun arguments state =>
  (operands arguments).foldl (fun state path =>
    if (entryAt state path).isSome then state else writeFile "touch" state path (.text []))
    (state.finish 0)

/-- Makes directories. -/
def mkdir : Tool := fun arguments state =>
  (operands arguments).foldl (fun state path =>
    { state with disk := state.disk.plant (Path.names (state.path path)) .directory })
    (state.finish 0)

/-- Prints the directory. -/
def pwd : Tool := fun _ state => (state.say (state.directory.toList ++ ['\n'])).finish 0

/-- Goes to another directory. -/
def cd : Tool := fun arguments state =>
  match arguments with
  | path :: _ => match state.disk.locate (state.path path) with
    | .ok location => { state with directory := Disk.pathOf location, status := 0 }
    | .error _ => state.complain ("cd: can't cd to " ++ String.ofList path) 2
  | [] => state.finish 0

/-- Sends a signal; only the script itself can be reached. -/
def kill : Tool := fun arguments state =>
  if (operands arguments).contains State.ownNumber then
    if arguments.contains ['-', '0'] then state.finish 0
    else { state with ending := some .killed }
  else state.complain "kill: No such process" 1

/-- The names in a directory, in order, without hidden ones. -/
def namesIn (state : State) (location : Location) : List String :=
  (((state.disk.below location).filter fun found => found.length = location.length + 1).filterMap
    List.getLast?).filter fun name => name.toList.head? ≠ some '.'

/-- Lists files and directories. -/
def ls : Tool := fun arguments state =>
  let paths := match operands arguments with
    | [] => [['.']]
    | paths => paths
  paths.foldl (fun state path =>
    match state.disk.locate (state.path path) with
    | .error fault =>
      { complainAbout state "ls: cannot access" ("'" ++ String.ofList path ++ "'") fault with
        status := 2 }
    | .ok location => match state.disk.entry? location with
      | some (.file _) => state.say (path ++ ['\n'])
      | _ => (namesIn state location).foldl (fun state name => state.say (name.toList ++ ['\n']))
          state) (state.finish 0)

-- ================================================================= texts

/-- The bytes of the files that are named, or what comes in. -/
def inputOf (state : State) (paths : List (List Char)) : List UInt8 :=
  match paths with
  | [] => state.input
  | paths => paths.flatMap fun path => match state.disk.read (state.path path) with
    | .ok content => content.bytes
    | .error _ => []

/-- Bytes cut after each line break. -/
def byteLines : List UInt8 → List (List UInt8)
  | [] => []
  | 10 :: rest => [10] :: byteLines rest
  | b :: rest => match byteLines rest with
    | [] => [[b]]
    | line :: lines => if line.isEmpty then [b] :: lines else (b :: line) :: lines

/-- How much of a text is wanted, by the option that says so, and the other
arguments. -/
def amount : List (List Char) → Char × Nat × List (List Char)
  | ['-', unit] :: count :: rest => (unit, (number count).toNat, rest)
  | ('-' :: c :: count) :: rest =>
    if c.isDigit then ('n', (number (c :: count)).toNat, rest)
    else (c, (number count).toNat, rest)
  | rest => ('n', 10, rest)

/-- Prints the first lines or bytes. -/
def head : Tool := fun arguments state =>
  let (unit, count, paths) := amount arguments
  let bytes := inputOf state paths
  (state.print (if unit = 'c' then bytes.take count
    else ((byteLines bytes).take count).flatten)).finish 0

/-- Prints the last lines or bytes. -/
def tail : Tool := fun arguments state =>
  let (unit, count, paths) := amount arguments
  let bytes := inputOf state paths
  let lines := byteLines bytes
  (state.print (if unit = 'c' then bytes.drop (bytes.length - count)
    else (lines.drop (lines.length - count)).flatten)).finish 0

/-- Prints the numbers between two bounds. -/
def seq : Tool := fun arguments state =>
  let (first, last) := match arguments with
    | [last] => (1, number last)
    | first :: last :: _ => (number first, number last)
    | [] => (1, 0)
  ((List.range (last - first + 1).toNat).foldl (fun state (i : Nat) =>
    state.say ((toString (first + Int.ofNat i)).toList ++ ['\n'])) state).finish 0

/-- Prints the last name of a path. -/
def basename : Tool := fun arguments state =>
  let name := (Path.fileName? (String.ofList (arguments.headD []))).getD ""
  (state.say (name.toList ++ ['\n'])).finish 0

/-- Prints a path without its last name. -/
def dirname : Tool := fun arguments state =>
  let directory := (Path.parent? (String.ofList (arguments.headD []))).getD "/"
  (state.say ((if directory.isEmpty then "." else directory).toList ++ ['\n'])).finish 0

-- ============================================================== variables

/-- Sets the variables that are given values. -/
def declare : Tool := fun arguments state =>
  arguments.foldl (fun state argument =>
    match splitOnce? ['='] argument with
    | some (name, value) => state.assign name value
    | none => state) (state.finish 0)

/-- Gives words to variables, and what is left to the last of them. -/
def assignWords : List (List Char) → List Char → State → State
  | [], _, state => state
  | [name], line, state => state.assign name (trim line)
  | name :: names, line, state =>
    let line := trimStart line
    assignWords names (line.dropWhile (!isBlank ·))
      (state.assign name (line.takeWhile (!isBlank ·)))

/-- Reads a line into variables. -/
def read : Tool := fun arguments state =>
  let line := state.input.takeWhile (· ≠ 10)
  let rest := (state.input.dropWhile (· ≠ 10)).drop 1
  let whole := state.input.contains 10
  let state := assignWords (operands arguments) (Utf8.decodeLossy line) { state with input := rest }
  state.finish (if whole then 0 else 1)

/-- The programs by name. -/
def tools : List (String × Tool) := [
  ("echo", echo), ("printf", printf), ("test", test), ("[", bracket), ("cat", cat), ("rm", rm),
  ("cp", cp), ("mv", mv), ("touch", touch), ("mkdir", mkdir), ("pwd", pwd), ("kill", kill),
  ("ls", ls), ("head", head), ("tail", tail), ("seq", seq), ("basename", basename),
  ("dirname", dirname),
  ("true", fun _ state => state.finish 0), ("false", fun _ state => state.finish 1),
  ("sleep", fun _ state => state.finish 0)]

/-- The programs that only a script knows. -/
def builtins : List (String × Tool) := [
  ("cd", cd), ("export", declare), ("local", declare), ("readonly", declare), ("read", read),
  ("break", fun _ state => { state with ending := some .brokeLoop, status := 0 }),
  ("continue", fun _ state => { state with ending := some .continuedLoop, status := 0 }),
  ("shift", fun _ state => { state with arguments := state.arguments.drop 1, status := 0 })]
  ++ [":", "set", "trap", "umask", "unset", "wait"].map fun name =>
    (name, fun _ state => state.finish 0)

end Assay.Shell
