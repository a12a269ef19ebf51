/-
Scripts of a small shell, and how they are read. The language is the part of
the usual shell that short scripts need: words with quotes and expansions,
redirections, lists, pipes, conditions and loops.

Readers answer what they read and the characters left. They recurse on a bound
that the length of the script exceeds, since every round takes a character.
-/
import Assay.Text.Search

namespace Assay.Shell

-- ================================================================ words

/-- A part of a word. Quoted parts are not split at blanks. -/
inductive Part where
  | literal (chars : List Char) (quoted : Bool)
  | parameter (name : List Char) (quoted : Bool)
  | arithmetic (expression : List Char) (quoted : Bool)
  | output (script : List Char) (quoted : Bool)
deriving DecidableEq

/-- A word before expansion. -/
abbrev Word := List Part

/-- What a word can be made of without quotes. -/
def isPlain (c : Char) : Bool :=
  !(c.isWhitespace || ['\x22', '\x27', '\x5c', '$', '\x60', ';', '&', '|', '<', '>', '(', ')'].contains c)

/-- What a name can be made of. -/
def isNameChar (c : Char) : Bool := c.isAlphanum || c = '_'

/-- The text up to the parenthesis that closes an opened one, and what follows
it. `depth` counts the parentheses opened inside. -/
def toClosing : (depth : Nat) → List Char → Option (List Char × List Char)
  | _, [] => none
  | 0, ')' :: rest => some ([], rest)
  | depth + 1, ')' :: rest => (toClosing depth rest).map fun (text, rest) => (')' :: text, rest)
  | depth, '(' :: rest => (toClosing (depth + 1) rest).map fun (text, rest) => ('(' :: text, rest)
  | depth, c :: rest => (toClosing depth rest).map fun (text, rest) => (c :: text, rest)

/-- The text up to a character, and what follows that. -/
def upTo (stop : Char) (text : List Char) : List Char × List Char :=
  (text.takeWhile (· ≠ stop), (text.dropWhile (· ≠ stop)).drop 1)

/-- The part that a dollar sign begins; the sign itself has been read. -/
def dollar (quoted : Bool) (text : List Char) : Part × List Char :=
  match text with
  | '(' :: '(' :: rest => match toClosing 0 rest with
    | some (expression, ')' :: rest) => (.arithmetic expression quoted, rest)
    | _ => (.literal ['$'] true, text)
  | '(' :: rest => match toClosing 0 rest with
    | some (script, rest) => (.output script quoted, rest)
    | none => (.literal ['$'] true, text)
  | '\x7b' :: rest =>
    let (name, rest) := upTo '\x7d' rest
    (.parameter name quoted, rest)
  | c :: rest =>
    if c.isAlpha || c = '_' then
      (.parameter (text.takeWhile isNameChar) quoted, text.dropWhile isNameChar)
    else if c.isDigit || ['@', '*', '?', '$', '!'].contains c || c = '#' then
      (.parameter [c] quoted, rest)
    else (.literal ['$'] true, text)
  | [] => (.literal ['$'] true, [])

/-- The parts up to a closing quote, or up to the end of the text where there is
none to wait for. -/
def quotedParts (stop : Option Char) : (rounds : Nat) → List Char → Word × List Char
  | 0, text => ([], text)
  | _, [] => ([], [])
  | rounds + 1, '\x5c' :: c :: rest =>
    let (parts, after) := quotedParts stop rounds rest
    let chars := if ['$', '\x60', '\x5c'].contains c || some c == stop then [c]
      else if c = '\n' then [] else ['\x5c', c]
    (.literal chars true :: parts, after)
  | rounds + 1, '$' :: rest =>
    let (part, rest) := dollar true rest
    let (parts, after) := quotedParts stop rounds rest
    (part :: parts, after)
  | rounds + 1, '\x60' :: rest =>
    let (script, rest) := upTo '\x60' rest
    let (parts, after) := quotedParts stop rounds rest
    (.output script true :: parts, after)
  | rounds + 1, c :: rest =>
    if some c == stop then ([], rest)
    else
      let (parts, after) := quotedParts stop rounds rest
      (.literal [c] true :: parts, after)

/-- The word that a text begins with; it has no parts when there is none. -/
def word : (rounds : Nat) → List Char → Word × List Char
  | 0, text => ([], text)
  | _, [] => ([], [])
  | rounds + 1, '\x27' :: rest =>
    let (chars, rest) := upTo '\x27' rest
    let (parts, after) := word rounds rest
    (.literal chars true :: parts, after)
  | rounds + 1, '\x22' :: rest =>
    let (inner, rest) := quotedParts (some '\x22') rounds rest
    let (parts, after) := word rounds rest
    (.literal [] true :: inner ++ parts, after)
  | rounds + 1, '\x5c' :: '\n' :: rest => word rounds rest
  | rounds + 1, '\x5c' :: c :: rest =>
    let (parts, after) := word rounds rest
    (.literal [c] true :: parts, after)
  | rounds + 1, '$' :: rest =>
    let (part, rest) := dollar false rest
    let (parts, after) := word rounds rest
    (part :: parts, after)
  | rounds + 1, '\x60' :: rest =>
    let (script, rest) := upTo '\x60' rest
    let (parts, after) := word rounds rest
    (.output script false :: parts, after)
  | rounds + 1, c :: rest =>
    if isPlain c then
      let (parts, after) := word rounds (rest.dropWhile isPlain)
      (.literal (c :: rest.takeWhile isPlain) false :: parts, after)
    else ([], c :: rest)

-- =============================================================== lexemes

/-- What separates words. -/
inductive Operator where
  | semicolon | newline | both | either | background | pipe | leftParen | rightParen | branchEnd
deriving DecidableEq

/-- Where a redirection leads. One of kind `here` carries its text. -/
inductive Direction where
  | write | append | read | duplicate | here
deriving DecidableEq

/-- A lexeme of a script. A redirection names the stream it redirects; the word
after it is its target. -/
inductive Lexeme where
  | word (word : Word)
  | operator (operator : Operator)
  | redirect (stream : Nat) (direction : Direction)
deriving DecidableEq

/-- The redirection that a text begins with, and its length. -/
def redirect? (text : List Char) : Option (Lexeme × Nat) :=
  let (stream, sign, lead) : Option Nat × List Char × Nat := match text with
    | '1' :: '>' :: rest => (some 1, '>' :: rest, 1)
    | '2' :: '>' :: rest => (some 2, '>' :: rest, 1)
    | '0' :: '<' :: rest => (some 0, '<' :: rest, 1)
    | text => (none, text, 0)
  match sign with
  | '>' :: '>' :: _ => some (.redirect (stream.getD 1) .append, lead + 2)
  | '>' :: '&' :: _ => some (.redirect (stream.getD 1) .duplicate, lead + 2)
  | '>' :: '|' :: _ => some (.redirect (stream.getD 1) .write, lead + 2)
  | '>' :: _ => some (.redirect (stream.getD 1) .write, lead + 1)
  | '<' :: _ => some (.redirect (stream.getD 0) .read, lead + 1)
  | _ => none

/-- The operator that a text begins with, and its length. -/
def operator? : List Char → Option (Operator × Nat)
  | '&' :: '&' :: _ => some (.both, 2)
  | '|' :: '|' :: _ => some (.either, 2)
  | ';' :: ';' :: _ => some (.branchEnd, 2)
  | ';' :: _ => some (.semicolon, 1)
  | '\n' :: _ => some (.newline, 1)
  | '&' :: _ => some (.background, 1)
  | '|' :: _ => some (.pipe, 1)
  | '(' :: _ => some (.leftParen, 1)
  | ')' :: _ => some (.rightParen, 1)
  | _ => none

/-- The lines before a delimiter, and the text after that. Tabs in front of a
line are left out where the script says so. -/
def linesBefore (delimiter : List Char) (untabbed : Bool) :
    (rounds : Nat) → List Char → List Char × List Char
  | 0, text => ([], text)
  | _, [] => ([], [])
  | rounds + 1, text =>
    let line := text.takeWhile (· ≠ '\n')
    let line := if untabbed then line.dropWhile (· = '\t') else line
    let rest := (text.dropWhile (· ≠ '\n')).drop 1
    if line == delimiter then ([], rest)
    else
      let (lines, after) := linesBefore delimiter untabbed rounds rest
      (line ++ '\n' :: lines, after)

/-- The characters of a word that is not expanded. -/
def plainChars (word : Word) : List Char :=
  word.flatMap fun
    | .literal chars _ => chars
    | _ => []

/-- Some part of the word is quoted. -/
def hasQuotes (word : Word) : Bool :=
  word.any fun
    | .literal _ quoted => quoted
    | _ => false

/-- A text given in the script itself, after its sign: the text, and the script
without it. -/
def hereText (rest : List Char) : Word × List Char :=
  let (untabbed, rest) := match rest with
    | '-' :: rest => (true, rest)
    | rest => (false, rest)
  let rest := rest.dropWhile fun c => c = ' ' || c = '\t'
  let (delimiter, rest) := word (rest.length + 1) rest
  let below := (rest.dropWhile (· ≠ '\n')).drop 1
  let (text, after) := linesBefore (plainChars delimiter) untabbed (below.length + 1) below
  let parts := if hasQuotes delimiter then [.literal text true]
    else (quotedParts none (text.length + 1) text).1
  (.literal [] true :: parts, rest.takeWhile (· ≠ '\n') ++ '\n' :: after)

/-- The lexemes of a script. -/
def lexemes : (rounds : Nat) → List Char → List Lexeme
  | 0, _ => []
  | _, [] => []
  | rounds + 1, '<' :: '<' :: rest =>
    let (text, rest) := hereText rest
    .redirect 0 .here :: .word text :: lexemes rounds rest
  | rounds + 1, c :: rest =>
    if c = ' ' || c = '\t' || c = '\r' then lexemes rounds rest
    else if c = '#' then lexemes rounds (rest.dropWhile (· ≠ '\n'))
    else match redirect? (c :: rest), operator? (c :: rest) with
      | some (found, length), _ => found :: lexemes rounds ((c :: rest).drop length)
      | none, some (found, length) =>
        .operator found :: lexemes rounds ((c :: rest).drop length)
      | none, none =>
        let (found, after) := word (rest.length + 1) (c :: rest)
        match found with
        | [] => lexemes rounds rest
        | found => .word found :: lexemes rounds after

-- =============================================================== scripts

/-- A redirection with its target. -/
structure Redirection where
  stream : Nat
  direction : Direction
  target : Word
deriving DecidableEq

/-- A script. -/
inductive Script where
  | simple (words : List Word) (redirections : List Redirection)
  | block (body : Script) (redirections : List Redirection)
  | sequence (first second : Script)
  | both (first second : Script)
  | either (first second : Script)
  | pipe (first second : Script)
  | negation (script : Script)
  | conditional (condition yes no : Script)
  | loop (condition body : Script) (wanted : Bool)
  | each (name : List Char) (words : List Word) (body : Script)
  | choice (subject : Word) (branches : List (List Word × Script))
  | define (name : List Char) (body : Script)
  /-- Commands that change nothing but files. -/
  | apart (body : Script)
  | nothing

/-- The lexeme is this word, without quotes. -/
def isWord (text : String) : Lexeme → Bool
  | .word [.literal chars false] => chars == text.toList
  | _ => false

/-- The lexeme ends a command. -/
def isEnd : Lexeme → Bool
  | .operator .semicolon | .operator .newline | .operator .background => true
  | _ => false

/-- The words that end a list of commands. -/
def isCloser (lexeme : Lexeme) : Bool :=
  ["do", "done", "then", "elif", "else", "fi", "esac", "\x7d"].any (isWord · lexeme)
    || lexeme == .operator .rightParen || lexeme == .operator .branchEnd

/-- Leaves out line breaks. -/
def afterBreaks (text : List Lexeme) : List Lexeme := text.dropWhile (· == .operator .newline)

/-- Takes one lexeme that satisfies a condition. -/
def taking (wanted : Lexeme → Bool) : List Lexeme → Option (List Lexeme)
  | lexeme :: rest => if wanted lexeme then some rest else none
  | [] => none

/-- The redirections that a text begins with. -/
def redirections : (rounds : Nat) → List Lexeme → List Redirection × List Lexeme
  | rounds + 1, .redirect stream direction :: .word target :: rest =>
    let (more, rest) := redirections rounds rest
    (⟨stream, direction, target⟩ :: more, rest)
  | _, text => ([], text)

/-- Words and redirections up to an operator. -/
def simpleParts : (rounds : Nat) → List Lexeme → List Word × List Redirection × List Lexeme
  | rounds + 1, .word found :: rest =>
    let (words, redirections, rest) := simpleParts rounds rest
    (found :: words, redirections, rest)
  | rounds + 1, .redirect stream direction :: .word target :: rest =>
    let (words, redirections, rest) := simpleParts rounds rest
    (words, ⟨stream, direction, target⟩ :: redirections, rest)
  | _, text => ([], [], text)

/-- Words up to an operator. -/
def wordsOnly : List Lexeme → List Word × List Lexeme
  | .word found :: rest =>
    let (words, rest) := wordsOnly rest
    (found :: words, rest)
  | text => ([], text)

/-- Words with upright bars between them. -/
def alternatives : List Lexeme → List Word × List Lexeme
  | .word found :: .operator .pipe :: rest =>
    let (words, rest) := alternatives rest
    (found :: words, rest)
  | .word found :: rest => ([found], rest)
  | text => ([], text)

mutual

/-- A list of commands, up to its end or to a word that closes it. -/
def list : (rounds : Nat) → List Lexeme → Option (Script × List Lexeme)
  | 0, _ => none
  | rounds + 1, text => do
    match text with
    | [] => return (.nothing, [])
    | lexeme :: rest =>
      if isEnd lexeme then list rounds rest
      else if isCloser lexeme then return (.nothing, lexeme :: rest)
      else
        let (first, rest) ← chain rounds (lexeme :: rest)
        let (more, rest) ← list rounds rest
        return (.sequence first more, rest)

/-- Pipes joined by `&&` and `||`. -/
def chain : (rounds : Nat) → List Lexeme → Option (Script × List Lexeme)
  | 0, _ => none
  | rounds + 1, text => do
    let (first, rest) ← pipeline rounds text
    chained rounds first rest

/-- What may follow a pipe in a chain. -/
def chained : (rounds : Nat) → Script → List Lexeme → Option (Script × List Lexeme)
  | 0, _, _ => none
  | rounds + 1, first, text => do
    match text with
    | .operator .both :: rest =>
      let (second, rest) ← pipeline rounds (afterBreaks rest)
      chained rounds (.both first second) rest
    | .operator .either :: rest =>
      let (second, rest) ← pipeline rounds (afterBreaks rest)
      chained rounds (.either first second) rest
    | text => return (first, text)

/-- Commands joined by pipes. -/
def pipeline : (rounds : Nat) → List Lexeme → Option (Script × List Lexeme)
  | 0, _ => none
  | rounds + 1, text => do
    match text with
    | lexeme :: rest =>
      if isWord "!" lexeme then
        let (inner, rest) ← pipeline rounds rest
        return (.negation inner, rest)
      else
        let (first, rest) ← command rounds (lexeme :: rest)
        match rest with
        | .operator .pipe :: rest =>
          let (second, rest) ← pipeline rounds (afterBreaks rest)
          return (.pipe first second, rest)
        | rest => return (first, rest)
    | [] => none

/-- What follows the condition of a conditional. -/
def branches : (rounds : Nat) → List Lexeme → Option (Script × List Lexeme)
  | 0, _ => none
  | rounds + 1, text => do
    let (condition, rest) ← list rounds text
    let rest ← taking (isWord "then") rest
    let (yes, rest) ← list rounds rest
    match rest with
    | lexeme :: rest =>
      if isWord "elif" lexeme then
        let (no, rest) ← branches rounds rest
        return (.conditional condition yes no, rest)
      else if isWord "else" lexeme then
        let (no, rest) ← list rounds rest
        return (.conditional condition yes no, ← taking (isWord "fi") rest)
      else
        return (.conditional condition yes .nothing, ← taking (isWord "fi") (lexeme :: rest))
    | [] => none

/-- A loop after its first word. -/
def loopBody : (rounds : Nat) → (wanted : Bool) → List Lexeme → Option (Script × List Lexeme)
  | 0, _, _ => none
  | rounds + 1, wanted, text => do
    let (condition, rest) ← list rounds text
    let rest ← taking (isWord "do") rest
    let (body, rest) ← list rounds rest
    return (.loop condition body wanted, ← taking (isWord "done") rest)

/-- The branches of a choice, up to its last word. -/
def choices : (rounds : Nat) → List Lexeme → Option (List (List Word × Script) × List Lexeme)
  | 0, _ => none
  | rounds + 1, text => do
    match afterBreaks text with
    | [] => none
    | lexeme :: rest =>
      if isWord "esac" lexeme then return ([], rest)
      else
        let text := if lexeme == .operator .leftParen then rest else lexeme :: rest
        let (patterns, rest) := alternatives text
        let (body, rest) ← list rounds (← taking (· == .operator .rightParen) rest)
        let rest := (taking (· == .operator .branchEnd) rest).getD rest
        let (more, rest) ← choices rounds rest
        return ((patterns, body) :: more, rest)

/-- One command. -/
def command : (rounds : Nat) → List Lexeme → Option (Script × List Lexeme)
  | 0, _ => none
  | rounds + 1, text => do
    let compound (found : Script × List Lexeme) : Script × List Lexeme :=
      let (redirected, rest) := redirections rounds found.2
      (.block found.1 redirected, rest)
    match text with
    | [] => none
    | lexeme :: rest =>
      if isWord "if" lexeme then compound <$> branches rounds rest
      else if isWord "while" lexeme then compound <$> loopBody rounds true rest
      else if isWord "until" lexeme then compound <$> loopBody rounds false rest
      else if isWord "\x7b" lexeme then
        let (body, rest) ← list rounds rest
        return compound (body, ← taking (isWord "\x7d") rest)
      else if lexeme == .operator .leftParen then
        let (body, rest) ← list rounds rest
        return compound (.apart body, ← taking (· == .operator .rightParen) rest)
      else if isWord "case" lexeme then
        match rest with
        | .word subject :: rest =>
          let (branches, rest) ← choices rounds (← taking (isWord "in") (afterBreaks rest))
          return compound (.choice subject branches, rest)
        | _ => none
      else if isWord "for" lexeme then
        match rest with
        | .word [.literal name false] :: rest =>
          let (words, rest) := match taking (isWord "in") rest with
            | some rest => wordsOnly rest
            | none => ([[.parameter ['@'] true]], rest)
          let rest ← taking (isWord "do") (rest.dropWhile isEnd)
          let (body, rest) ← list rounds rest
          return compound (.each name words body, ← taking (isWord "done") rest)
        | _ => none
      else if let (.word [.literal name false], .operator .leftParen :: .operator .rightParen :: rest) :=
          (lexeme, rest) then
        let (body, rest) ← command rounds (afterBreaks rest)
        return (.define name body, rest)
      else
        let (words, redirections, left) := simpleParts (rest.length + 1) (lexeme :: rest)
        if words.isEmpty && redirections.isEmpty then none
        else return (.simple words redirections, left)

end

/-- A whole script. -/
def Script.ofText? (text : List Char) : Option Script :=
  let found := lexemes (text.length + 1) text
  match list (8 * found.length + 8) found with
  | some (script, []) => some script
  | _ => none

end Assay.Shell
