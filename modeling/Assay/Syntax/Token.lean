/-
The tokens of Go source. Words split into identifiers, keywords and the
predeclared words that the grammar treats apart; signs are the operators and
delimiters. A line break that ends a statement is a token of its own, so the
grammar never has to look at white space.
-/

namespace Assay.Syntax

/-- The reserved words. -/
inductive Keyword where
  | breakKey | caseKey | chanKey | constKey | continueKey | defaultKey | deferKey | elseKey
  | fallthroughKey | forKey | funcKey | goKey | gotoKey | ifKey | importKey | interfaceKey
  | mapKey | packageKey | rangeKey | returnKey | selectKey | structKey | switchKey
  | typeKey | varKey
deriving DecidableEq

/-- Words that are not reserved and yet have productions of their own. -/
inductive Predeclared where
  | nilWord | trueWord | falseWord | iotaWord | newWord | makeWord
deriving DecidableEq

/-- Operators and delimiters. Every operator that also assigns is `compound`. -/
inductive Sign where
  | leftParen | rightParen | leftBracket | rightBracket | leftBrace | rightBrace
  | comma | semicolon | dot | ellipsis | colon | define | assign | compound
  | equal | notEqual | less | lessEqual | greater | greaterEqual
  | plus | minus | star | slash | percent | ampersand | pipe | caret | andNot
  | shiftLeft | shiftRight | andAnd | orOr | bang | arrow | increment | decrement | tilde
deriving DecidableEq

/-- What a token is. -/
inductive Tag where
  | identifier
  /-- The word `_`. -/
  | blank
  | keyword (keyword : Keyword)
  | predeclared (word : Predeclared)
  | int | float | imaginary | rune | rawString | quotedString
  | sign (sign : Sign)
  /-- A line break after a token that can end a statement. -/
  | lineBreak
  /-- A character that begins no token. -/
  | stray
deriving DecidableEq

/-- A token and the stretch of source it covers. -/
structure Token where
  tag : Tag
  start : Nat
  stop : Nat
deriving DecidableEq

/-- The tag of a word, which is an identifier unless it is spelled like one of
the words above. -/
def Tag.ofWord (word : List Char) : Tag :=
  match spelled.find? (·.1 == String.ofList word) with
  | some (_, tag) => tag
  | none => .identifier
where
  spelled : List (String × Tag) := [
    ("_", .blank),
    ("break", .keyword .breakKey), ("case", .keyword .caseKey), ("chan", .keyword .chanKey),
    ("const", .keyword .constKey), ("continue", .keyword .continueKey),
    ("default", .keyword .defaultKey), ("defer", .keyword .deferKey),
    ("else", .keyword .elseKey), ("fallthrough", .keyword .fallthroughKey),
    ("for", .keyword .forKey), ("func", .keyword .funcKey), ("go", .keyword .goKey),
    ("goto", .keyword .gotoKey), ("if", .keyword .ifKey), ("import", .keyword .importKey),
    ("interface", .keyword .interfaceKey), ("map", .keyword .mapKey),
    ("package", .keyword .packageKey), ("range", .keyword .rangeKey),
    ("return", .keyword .returnKey), ("select", .keyword .selectKey),
    ("struct", .keyword .structKey), ("switch", .keyword .switchKey),
    ("type", .keyword .typeKey), ("var", .keyword .varKey),
    ("nil", .predeclared .nilWord), ("true", .predeclared .trueWord),
    ("false", .predeclared .falseWord), ("iota", .predeclared .iotaWord),
    ("new", .predeclared .newWord), ("make", .predeclared .makeWord)]

/-- The signs with their spellings. A spelling stands before every shorter one
that begins it, so the first match is the longest. -/
def Sign.spellings : List (List Char × Sign) := [
  ("<<=", .compound), (">>=", .compound), ("&^=", .compound), ("...", .ellipsis),
  ("<<", .shiftLeft), (">>", .shiftRight), ("&^", .andNot), ("&&", .andAnd), ("||", .orOr),
  ("<-", .arrow), ("++", .increment), ("--", .decrement), ("==", .equal), ("!=", .notEqual),
  ("<=", .lessEqual), (">=", .greaterEqual), (":=", .define), ("+=", .compound),
  ("-=", .compound), ("*=", .compound), ("/=", .compound), ("%=", .compound),
  ("&=", .compound), ("|=", .compound), ("^=", .compound),
  ("(", .leftParen), (")", .rightParen), ("[", .leftBracket), ("]", .rightBracket),
  ("\x7b", .leftBrace), ("\x7d", .rightBrace), (",", .comma), (";", .semicolon), (".", .dot),
  (":", .colon), ("=", .assign), ("<", .less), (">", .greater), ("+", .plus), ("-", .minus),
  ("*", .star), ("/", .slash), ("%", .percent), ("&", .ampersand), ("|", .pipe),
  ("^", .caret), ("!", .bang), ("~", .tilde)].map fun (spelling, sign) => (spelling.toList, sign)

/-- A line break after such a token ends the statement. -/
def Tag.endsStatement : Tag → Bool
  | .identifier | .blank | .predeclared _ => true
  | .int | .float | .imaginary | .rune | .rawString | .quotedString => true
  | .keyword .breakKey | .keyword .continueKey | .keyword .fallthroughKey
  | .keyword .returnKey => true
  | .sign .increment | .sign .decrement | .sign .rightParen | .sign .rightBracket
  | .sign .rightBrace => true
  | _ => false

end Assay.Syntax
