/-
Reading tokens. A reader takes a cursor and either fails or answers a value and
the cursor after it; trying one reader and then another is `<|>`, which starts
the second where the first began. Every repetition is bounded by the number of
tokens left, which loses nothing because a repeated reader takes a token each
time.

Besides, a reader keeps in mind how far any attempt has come, also one that was
given up: when a source does not fit the grammar, that is where it goes wrong.
-/
import Assay.Syntax.Token
import Assay.Syntax.Tree

namespace Assay.Syntax

/-- The tokens still to be read, and where the last one read ended. -/
structure Cursor where
  tokens : List Token
  last : Nat

/-- A reader of tokens. The number it keeps is where the furthest token taken so
far ends. -/
abbrev Reader := StateT Cursor (OptionT (StateM Nat))

namespace Reader

-- ============================================================== looking

/-- The tag of the token `n` places ahead; the next token is at place `0`. -/
def ahead (n : Nat) : Reader (Option Tag) := do
  return ((← get).tokens[n]?).map (·.tag)

/-- The tag of the next token. -/
def next : Reader (Option Tag) := ahead 0

/-- The next token has this tag. -/
def sees (tag : Tag) : Reader Bool := do return (← next) == some tag

/-- The next token is this sign. -/
def seesSign (sign : Sign) : Reader Bool := sees (.sign sign)

/-- The next token is this keyword. -/
def seesKeyword (keyword : Keyword) : Reader Bool := sees (.keyword keyword)

/-- Where the next token starts, or where the last one ended. -/
def here : Reader Nat := do
  let cursor ← get
  return match cursor.tokens with
    | [] => cursor.last
    | token :: _ => token.start

/-- How many tokens are left. -/
def left : Reader Nat := do return (← get).tokens.length

-- =============================================================== taking

/-- Keeps in mind that a token ending at `stop` could be taken. -/
def reach (stop : Nat) : Reader Unit := fun cursor => do
  modifyThe Nat (max stop)
  return ((), cursor)

/-- Takes the next token if its tag fits. -/
def takeIf (fits : Tag → Bool) : Reader Token := do
  match (← get).tokens with
  | [] => failure
  | token :: tokens =>
    if fits token.tag then
      reach token.stop
      set (Cursor.mk tokens token.stop)
      return token
    else failure

/-- Takes the next token. -/
def take : Reader Token := takeIf fun _ => true

/-- Takes a token with this tag. -/
def expect (tag : Tag) : Reader Token := takeIf (· == tag)

/-- Takes this sign. -/
def sign (sign : Sign) : Reader Unit := do let _ ← expect (.sign sign)

/-- Takes this keyword. -/
def keyword (keyword : Keyword) : Reader Unit := do let _ ← expect (.keyword keyword)

/-- Takes this sign if it is next, and tells whether it was. -/
def accept (wanted : Sign) : Reader Bool := do
  if ← seesSign wanted then
    sign wanted
    return true
  else return false

/-- What `reader` answers, or nothing. -/
def optional? {α : Type} (reader : Reader α) : Reader (Option α) :=
  (some <$> reader) <|> pure none

-- ============================================================ repeating

/-- `reader` at most `rounds` times, until it fails. -/
def repeated {α : Type} (reader : Reader α) : (rounds : Nat) → Reader (List α)
  | 0 => return []
  | rounds + 1 => do
    match ← optional? reader with
    | none => return []
    | some item => return item :: (← repeated reader rounds)

/-- `reader` until it fails. -/
def many {α : Type} (reader : Reader α) : Reader (List α) := do
  repeated reader (← left)

/-- `reader` once or more, with commas between; no comma is left over. -/
def commaSeparated {α : Type} (reader : Reader α) : Reader (List α) := do
  let first ← reader
  let more ← many (do sign .comma; reader)
  return first :: more

-- ============================================================= building

/-- A node without children for a token. -/
def leaf (kind : Kind) (token : Token) : Tree := .node ⟨kind, none, token.start, token.stop⟩ []

/-- A node from `start` to where the last token ended. -/
def close (kind : Kind) (start : Nat) (children : List Tree) : Reader Tree := do
  return .node ⟨kind, none, start, (← get).last⟩ children

/-- A node around what `reader` answers. -/
def node (kind : Kind) (reader : Reader (List Tree)) : Reader Tree := do
  let start ← here
  let children ← reader
  close kind start children

/-- A word where a name is wanted: predeclared words are names like any other,
only keywords are not. -/
def isName : Tag → Bool
  | .identifier | .blank | .predeclared _ => true
  | _ => false

/-- Takes a name, as a node of this kind. -/
def name (kind : Kind) : Reader Tree := do return leaf kind (← takeIf isName)

/-- The next token is a name. -/
def seesName : Reader Bool := do return ((← next).map isName).getD false

/-- A string in either kind of quotes. -/
def string : Reader Tree := do
  let token ← takeIf fun tag => tag == .rawString || tag == .quotedString
  return leaf (if token.tag == .rawString then .rawStringLiteral else .interpretedStringLiteral)
    token

/-- What ends a statement or a declaration: a semicolon, a line break, or the
end of the source. -/
def terminator : Reader Unit := do
  match ← next with
  | none => return
  | some (.sign .semicolon) | some .lineBreak => let _ ← take
  | some _ => failure

/-- Items that a terminator separates; one after the last is accepted, unless
nothing stands in front of it. -/
def terminated {α : Type} (reader : Reader α) : Reader (List α) := do
  match ← optional? reader with
  | none => return []
  | some first =>
    let more ← many (do terminator; reader)
    let _ ← optional? terminator
    return first :: more

end Reader

end Assay.Syntax
