/-
Running scripts, and the machine that this makes: it starts the shell, the
shell's programs, and files that hold scripts.

A script is run with a bound on its steps, which short scripts do not come
near.
-/
import Assay.Shell.Tools

namespace Assay.Shell

open Text

-- ============================================================== commands

/-- What the assignments in front of a command set, and the words after
them. -/
def assignments : List Word → List (List Char × Word) × List Word
  | (.literal chars false :: parts) :: words =>
    let name := chars.takeWhile isNameChar
    match chars.dropWhile isNameChar with
    | '=' :: value =>
      if name.isEmpty then ([], (.literal chars false :: parts) :: words)
      else
        let (more, rest) := assignments words
        ((name, .literal value true :: parts) :: more, rest)
    | _ => ([], (.literal chars false :: parts) :: words)
  | words => ([], words)

/-- The bytes of pieces, the last piece first. -/
def collected (pieces : List (List UInt8)) : List UInt8 := pieces.reverse.flatten

/-- A redirection whose target has been expanded. -/
structure Redirected where
  stream : Nat
  direction : Direction
  target : List Char

/-- Gives what a command printed to where a redirection leads. The output
before the command is not part of the state. -/
def redirectOutput (state : State) (redirected : Redirected) : State :=
  let isError := redirected.stream = 2
  let bytes := collected (if isError then state.stderr else state.stdout)
  let emptied := if isError then { state with stderr := [] } else { state with stdout := [] }
  match redirected.direction with
  | .read | .here => state
  | .duplicate =>
    if redirected.target == ['1'] && isError then
      { emptied with stdout := bytes :: emptied.stdout }
    else if redirected.target == ['2'] && !isError then
      { emptied with stderr := bytes :: emptied.stderr }
    else state
  | .write | .append =>
    if redirected.target == "/dev/null".toList then emptied
    else
      let before := match redirected.direction, emptied.disk.read (emptied.path redirected.target) with
        | .append, .ok content => content.bytes
        | _, _ => []
      writeFile "sh" emptied redirected.target (.ofBytes (before ++ bytes))

/-- Runs something with redirections around it. Files are opened first, so that
writing to one empties it before the command looks. -/
def redirecting (redirections : List Redirected) (run : State → State) (state : State) : State :=
  let opened := redirections.foldl (fun state redirected =>
    match redirected.direction with
    | .write =>
      if redirected.target == "/dev/null".toList then state
      else writeFile "sh" state redirected.target (.text [])
    | .here => { state with input := Utf8.encode redirected.target }
    | .read => match state.disk.read (state.path redirected.target) with
      | .ok content => { state with input := content.bytes }
      | .error fault => complainAbout state "sh" (String.ofList redirected.target) fault
    | _ => state) { state with status := 0 }
  if opened.status ≠ 0 then opened
  else
    let after := run { opened with status := state.status, stdout := [], stderr := [] }
    let routed := redirections.reverse.foldl redirectOutput after
    { routed with
      stdout := routed.stdout ++ opened.stdout
      stderr := routed.stderr ++ opened.stderr
      input := state.input }

/-- Ends a script, or a function, with the status that is asked for. -/
def leave (ending : Nat → Ending) (arguments : List (List Char)) (state : State) : State :=
  match arguments with
  | [] => { state with ending := some (ending state.status) }
  | code :: _ =>
    if code.isEmpty || !code.all Char.isDigit then
      { state.object ("exit: Illegal number: " ++ String.ofList code) 2 with
        ending := some (.exited 2) }
    else
      let status := (number code).toNat % 256
      { state with ending := some (ending status), status := status }

/-- Calls a program by name. -/
def call (words : List (List Char)) (state : State) : State :=
  match words with
  | [] => state.finish state.status
  | name :: arguments =>
    if name == "exit".toList then leave .exited arguments state
    else if name == "return".toList then leave (fun _ => .returned) arguments state
    else match (builtins ++ tools).find? (·.1.toList == name) with
      | some (_, tool) => tool arguments state
      | none =>
        state.object (String.ofList name ++ ": not found") 127

-- ============================================================== patterns

/-- A pattern: characters, and whether each may stand for others. -/
abbrev Pattern := List (Char × Bool)

/-- The text has the form of a pattern. -/
def fits : (rounds : Nat) → Pattern → List Char → Bool
  | 0, _, _ => false
  | _, [], text => text.isEmpty
  | rounds + 1, (c, special) :: pattern, text =>
    if special && c = '*' then
      fits rounds pattern text || match text with
        | [] => false
        | _ :: rest => fits rounds ((c, special) :: pattern) rest
    else match text with
      | [] => false
      | d :: rest => ((special && c = '?') || c = d) && fits rounds pattern rest

-- ============================================================== programs

/-- The names of the shell. -/
def shellNames : List String := ["sh", "/bin/sh", "dash", "/bin/dash", "bash", "/bin/bash"]

/-- A script to be run by itself: its name, its text and its arguments. -/
structure Call where
  name : List Char
  script : List Char
  arguments : List (List Char)

/-- What a command line runs as a script, if it starts the shell or a file. -/
def scriptOf? (words : List (List Char)) (state : State) : Option (Except Disk.Fault Call) :=
  match words with
  | [] => none
  | program :: arguments =>
    if shellNames.contains (String.ofList program) then
      match arguments with
      | ['-', 'c'] :: script :: rest => some (.ok ⟨rest.headD program, script, rest.drop 1⟩)
      | path :: rest => some ((state.disk.readText (state.path path)).map (⟨path, ·, rest⟩))
      | [] => some (.ok ⟨program, Utf8.decodeLossy state.input, []⟩)
    else if program.contains '/' then
      some ((state.disk.readText (state.path program)).map (⟨program, ·, arguments⟩))
    else none

/-- The number of the first line that is no comment. -/
def firstLine (script : List Char) : Nat :=
  1 + ((splitAt (· = '\n') script).takeWhile fun line => line.isEmpty || line.head? == some '#').length

/-- The state that a script of its own begins in. -/
def State.enter (state : State) (called : Call) : State :=
  { state with
    name := called.name, line := firstLine called.script
    arguments := called.arguments, functions := []
    stdout := [], stderr := [], status := 0, ending := none }

/-- The state after a script of its own, which leaves its files, what it printed
and its status. One that was stopped leaves the status of that. -/
def State.resume (state after : State) : State :=
  { state with
    disk := after.disk, input := after.input
    stdout := after.stdout ++ state.stdout, stderr := after.stderr ++ state.stderr
    status := match after.ending with
      | some (.exited code) => code
      | some .killed => 137
      | _ => after.status }

-- =============================================================== running

/-- The value that expansion gives a word which is not split. -/
def wholeValue (found : List (List Char)) : List Char := join [' '] found

mutual

/-- Runs a script. -/
def run : (rounds : Nat) → Script → State → State
  | 0, _, state => state
  | rounds + 1, script, state =>
    if state.ending.isSome then state
    else match script with
    | .nothing => state
    | .simple words redirections =>
      let (settings, words) := assignments words
      let state := settings.foldl (fun state (name, value) =>
        let (found, state) := expand (output rounds) [value] { state with status := 0 }
        state.assign name (wholeValue found)) state
      let (found, state) := expand (output rounds) words state
      let (redirected, state) := targets rounds redirections state
      if redirected.isEmpty then perform rounds found state
      else redirecting redirected (perform rounds found) state
    | .block body redirections =>
      let (redirected, state) := targets rounds redirections state
      if redirected.isEmpty then run rounds body state
      else redirecting redirected (run rounds body) state
    | .apart body =>
      let entered := { state with stdout := [], stderr := [] }
      state.resume (run rounds body entered)
    | .define name body =>
      { state with functions := (name, body) :: state.functions, status := 0 }
    | .choice subject branches =>
      let (found, state) := expand (output rounds) [subject] { state with status := 0 }
      let text := wholeValue found
      let (chosen, state) := branches.foldl (fun (chosen, state) (patterns, body) =>
        match chosen with
        | some _ => (chosen, state)
        | none =>
          let (matched, state) := patterns.foldl (fun (matched, state) word =>
            let (pattern, state) := patternOf rounds word state
            (matched || fits (pattern.length + text.length + 1) pattern text, state)) (false, state)
          (if matched then some body else none, state)) (none, state)
      match chosen with
      | some body => run rounds body state
      | none => state
    | .sequence first second => run rounds second (run rounds first state)
    | .both first second =>
      let after := run rounds first state
      if after.status = 0 then run rounds second after else after
    | .either first second =>
      let after := run rounds first state
      if after.status = 0 then after else run rounds second after
    | .pipe first second =>
      let before := run rounds first { state with stdout := [], stderr := [] }
      let kept := { state with disk := before.disk, stderr := before.stderr ++ state.stderr }
      let entered := { kept with stdout := [], stderr := [], input := collected before.stdout }
      { kept.resume (run rounds second entered) with input := state.input }
    | .negation inner =>
      let after := run rounds inner state
      after.finish (if after.status = 0 then 1 else 0)
    | .conditional condition yes no =>
      let after := run rounds condition state
      if after.status = 0 then run rounds yes after
      else run rounds no (after.finish 0)
    | .loop condition body wanted =>
      let after := run rounds condition state
      if after.ending.isSome then after
      else if (after.status = 0) = wanted then
        let after := (run rounds body after).settled .continuedLoop
        if after.ending.isSome then after.settled .brokeLoop
        else run rounds (.loop condition body wanted) after
      else after.finish 0
    | .each name words body =>
      let (found, state) := expand (output rounds) words state
      (found.foldl (fun state value =>
        if state.ending.isSome then state
        else (run rounds body (state.assign name value)).settled .continuedLoop)
        (state.finish 0)).settled .brokeLoop

/-- Runs a command line: a function, a script of its own, or a program. -/
def perform : (rounds : Nat) → List (List Char) → State → State
  | 0, _, state => state
  | rounds + 1, words, state =>
    match words with
    | [] => call [] state
    | name :: arguments =>
      if name == "exec".toList && !arguments.isEmpty then
        let after := perform rounds arguments state
        if after.ending.isSome then after
        else { after with ending := some (.exited after.status) }
      else match state.functions.find? (·.1 == name) with
        | some (_, body) =>
          let after := run rounds body { state with arguments := arguments }
          { after.settled .returned with arguments := state.arguments }
        | none => match scriptOf? words state with
          | some (.ok called) => match Script.ofText? called.script with
            | some script => state.resume (run rounds script (state.enter called))
            | none => state.complain (String.ofList called.name ++ ": 1: Syntax error") 2
          | some (.error _) =>
            state.object (String.ofList name ++ ": not found") 127
          | none => call words state

/-- The pattern that a word makes. -/
def patternOf : (rounds : Nat) → Word → State → Pattern × State
  | 0, _, state => ([], state)
  | rounds + 1, word, state =>
    word.foldl (fun (pattern, state) part =>
      let special := match part with
        | .literal _ quoted => !quoted
        | .parameter _ quoted => !quoted
        | .arithmetic .. => false
        | .output _ quoted => !quoted
      let (found, state) := expand (output rounds) [[part]] state
      (pattern ++ (wholeValue found).map (·, special), state)) ([], state)

/-- Redirections with their targets expanded. -/
def targets : (rounds : Nat) → List Redirection → State → List Redirected × State
  | 0, _, state => ([], state)
  | rounds + 1, redirections, state =>
    redirections.foldl (fun (done, state) redirection =>
      let (found, state) := expand (output rounds) [redirection.target] state
      (done ++ [⟨redirection.stream, redirection.direction, wholeValue found⟩], state)) ([], state)

/-- What a script prints when it is run aside. -/
def output : (rounds : Nat) → List Char → State → List Char × State
  | 0, _, state => ([], state)
  | rounds + 1, text, state =>
    match Script.ofText? text with
    | none => ([], state)
    | some script =>
      let after := run rounds script { state with stdout := [], stderr := [], ending := none }
      let resumed := state.resume after
      (Utf8.decodeLossy (collected after.stdout),
        { resumed with stdout := state.stdout, input := state.input })

end

-- =============================================================== machine

/-- More steps than a short script takes. -/
def patience : Nat := 100000

/-- What a program leaves when it has come to its end. -/
def finished (state : State) : ProcessOutput × Disk :=
  let code : Option Nat := match state.ending with
    | some .killed => none
    | some (.exited code) => some code
    | _ => some state.status
  (⟨code == some 0, code.map Int.ofNat, Utf8.decodeLossy (collected state.stdout),
    Utf8.decodeLossy (collected state.stderr)⟩, state.disk)

/-- The state in which a program is started. -/
def beginning (disk : Disk) (command : Command) : State :=
  { disk := disk
    directory := if command.directory.isEmpty then "/" else command.directory
    name := command.program.toList, line := 1
    arguments := [], bindings := [], functions := [], input := [], stdout := [], stderr := []
    status := 0, ending := none }

/-- Starts programs: the shell with a script, a file that holds a script, or one
of the shell's programs. -/
def machine : Machine := fun command disk =>
  let words := command.program.toList :: command.arguments.map (·.toList)
  let state := beginning disk command
  let ended (state : State) : Except Disk.Fault ProcessOutput × Disk :=
    let (output, disk) := finished state
    (.ok output, disk)
  match scriptOf? words state with
  | some (.ok called) => match Script.ofText? called.script with
    | some script => ended (run patience script (state.enter called))
    | none => ended (state.complain (String.ofList called.name ++ ": 1: Syntax error") 2)
  | some (.error fault) =>
    if shellNames.contains command.program then
      ended (state.complain (command.program ++ ": 0: cannot open "
        ++ command.arguments.headD "" ++ ": No such file") 2)
    else (.error fault, disk)
  | none => match tools.find? (·.1 == command.program) with
    | some (_, tool) => ended (tool (command.arguments.map (·.toList)) state)
    | none => (.error .notFound, disk)

end Assay.Shell
