/-
From source text to tokens, in two steps. The source is first cut into pieces
that tile it: blanks, line feeds, comments and tokens, each the longest match at
its place. Then blanks and comments fall away, and a line feed becomes a token
exactly where it can end a statement.

Every scanner below answers how many characters it matches at the start of a
text; none matches the empty text, so cutting always advances.
-/
import Assay.Syntax.Token
import Assay.Text.Identifier
import Assay.Text.Search

namespace Assay.Syntax.Lexer

open Assay.Text

-- ============================================================== numbers

/-- The length of `digit (_? digit)*` after its first digit. -/
def digitsTail (isDigit : Char → Bool) : List Char → Nat
  | [] => 0
  | [c] => if isDigit c then 1 else 0
  | c :: d :: text =>
    if isDigit c then 1 + digitsTail isDigit (d :: text)
    else if c = '_' && isDigit d then 2 + digitsTail isDigit text
    else 0

/-- The length of a run of digits with single underscores between them. -/
def digits (isDigit : Char → Bool) : List Char → Nat
  | c :: text => if isDigit c then 1 + digitsTail isDigit text else 0
  | [] => 0

/-- A run of digits that an underscore may precede. -/
def digitsAfterBase (isDigit : Char → Bool) : List Char → Nat
  | '_' :: text => match digits isDigit text with
    | 0 => 0
    | n => n + 1
  | text => digits isDigit text

/-- Hexadecimal digits. -/
def isHex (c : Char) : Bool :=
  c.isDigit || ('a' ≤ c && c ≤ 'f') || ('A' ≤ c && c ≤ 'F')

/-- Octal digits. -/
def isOctal (c : Char) : Bool := '0' ≤ c && c ≤ '7'

/-- `n` characters more, when there are any to add to. -/
def grow (more : Nat) : Nat → Nat
  | 0 => 0
  | n => n + more

/-- An integer in any base. -/
def int (text : List Char) : Nat :=
  match text with
  | '0' :: rest =>
    let based := match rest with
      | 'x' :: body | 'X' :: body => grow 2 (digitsAfterBase isHex body)
      | 'b' :: body | 'B' :: body => grow 2 (digitsAfterBase (fun c => c = '0' || c = '1') body)
      | 'o' :: body | 'O' :: body => grow 2 (digitsAfterBase isOctal body)
      | body => grow 1 (digitsAfterBase isOctal body)
    max 1 based
  | _ => digits Char.isDigit text

/-- An exponent: a letter, a sign that may be missing, and digits. -/
def exponent (isLetter : Char → Bool) : List Char → Nat
  | c :: '+' :: text | c :: '-' :: text =>
    if isLetter c then grow 2 (digits Char.isDigit text) else 0
  | c :: text => if isLetter c then grow 1 (digits Char.isDigit text) else 0
  | [] => 0

/-- The exponent of a number in decimal. -/
def decimalExponent : List Char → Nat := exponent fun c => c = 'e' || c = 'E'

/-- The exponent of a number in hexadecimal. -/
def binaryExponent : List Char → Nat := exponent fun c => c = 'p' || c = 'P'

/-- A number with a point or an exponent, in decimal. -/
def decimalFloat (text : List Char) : Nat :=
  match digits Char.isDigit text, text.drop (digits Char.isDigit text) with
  | 0, '.' :: rest => match digits Char.isDigit rest with
    | 0 => 0
    | n => 1 + n + decimalExponent (rest.drop n)
  | 0, _ => 0
  | n, '.' :: rest =>
    let fraction := digits Char.isDigit rest
    n + 1 + fraction + decimalExponent (rest.drop fraction)
  | n, rest => grow n (decimalExponent rest)

/-- A number with a binary exponent, in hexadecimal. -/
def hexFloat : List Char → Nat
  | '0' :: 'x' :: text | '0' :: 'X' :: text =>
    let whole := digitsAfterBase isHex text
    let mantissa := match text.drop whole with
      | '.' :: rest =>
        let fraction := digits isHex rest
        if whole = 0 && fraction = 0 then 0 else whole + 1 + fraction
      | _ => whole
    if mantissa = 0 then 0 else grow (2 + mantissa) (binaryExponent (text.drop mantissa))
  | _ => 0

/-- A number with a point or an exponent. -/
def float (text : List Char) : Nat := max (decimalFloat text) (hexFloat text)

/-- A number that ends in the imaginary unit. -/
def imaginary (text : List Char) : Nat :=
  let closed (n : Nat) : Nat := if n ≠ 0 && (text.drop n).head? = some 'i' then n + 1 else 0
  max (closed (digits Char.isDigit text)) (max (closed (int text)) (closed (float text)))

-- ================================================================ quotes

/-- Exactly `n` hexadecimal digits, and the text after them. -/
def hexDigits? : Nat → List Char → Option (List Char)
  | 0, text => some text
  | n + 1, c :: text => if isHex c then hexDigits? n text else none
  | _ + 1, [] => none

/-- The length of a quoted string after its opening quote. The escapes `\x`,
`\u` and `\U` want their digits; any other character may follow a backslash. -/
def quotedTail : List Char → Option Nat
  | [] => none
  | '\x22' :: _ => some 1
  | '\n' :: _ => none
  | '\x5c' :: c :: text =>
    let enough := match c with
      | 'x' => (hexDigits? 2 text).isSome
      | 'u' => (hexDigits? 4 text).isSome
      | 'U' => (hexDigits? 8 text).isSome
      | _ => true
    if enough then (quotedTail text).map (· + 2) else none
  | '\x5c' :: [] => none
  | _ :: text => (quotedTail text).map (· + 1)

/-- The length of a raw string after its opening quote. -/
def rawTail : List Char → Option Nat
  | [] => none
  | '\x60' :: _ => some 1
  | _ :: text => (rawTail text).map (· + 1)

/-- The characters with a short escape in a rune. -/
def isRuneEscape (c : Char) : Bool :=
  ['a', 'b', 'f', 'n', 'r', 't', 'v', '\x5c', '\x27', '\x22'].contains c

/-- The length of a rune after its opening quote. -/
def runeTail : List Char → Option Nat
  | '\x5c' :: 'x' :: a :: b :: '\x27' :: _ => if isHex a && isHex b then some 5 else none
  | '\x5c' :: 'u' :: text => match hexDigits? 4 text with
    | some ('\x27' :: _) => some 7
    | _ => none
  | '\x5c' :: 'U' :: text => match hexDigits? 8 text with
    | some ('\x27' :: _) => some 11
    | _ => none
  | '\x5c' :: c :: '\x27' :: _ => if isRuneEscape c then some 3 else none
  | '\x5c' :: a :: b :: c :: '\x27' :: _ =>
    if isOctal a && isOctal b && isOctal c then some 5 else none
  | '\x5c' :: _ => none
  | c :: '\x27' :: _ => if c = '\x27' then none else some 2
  | _ => none

/-- The length of a block comment after its opening sign. -/
def commentTail : List Char → Option Nat
  | [] => none
  | '*' :: '/' :: _ => some 2
  | _ :: text => (commentTail text).map (· + 1)

-- ================================================================ pieces

/-- What a piece of source is. -/
inductive Lexeme where
  | blank
  | lineFeed
  | comment
  | token (tag : Tag)
deriving DecidableEq

/-- The blanks between tokens on a line. -/
def isSpace (c : Char) : Bool :=
  c = ' ' || c = '\t' || c = '\r' || c = '\x0b' || c = '\x0c'

/-- The sign a text begins with, and its length. -/
def sign? (text : List Char) : Option (Sign × Nat) :=
  (Sign.spellings.find? fun (spelling, _) => beginsWith spelling text).map
    fun (spelling, sign) => (sign, spelling.length)

/-- The number a text begins with: the longest of the three readings. -/
def number? (text : List Char) : Option (Tag × Nat) :=
  let whole := int text
  let fractional := float text
  let complex := imaginary text
  if whole = 0 && fractional = 0 then none
  else if complex > max whole fractional then some (.imaginary, complex)
  else if fractional > whole then some (.float, fractional)
  else some (.int, whole)

/-- The token a text begins with. A string that is never closed is stray up to
where it would have to close: the end of the line, or of the text. -/
def token (text : List Char) : Tag × Nat :=
  match text with
  | '\x22' :: rest => match quotedTail rest with
    | some n => (.quotedString, n + 1)
    | none => (.stray, 1 + (rest.takeWhile (· ≠ '\n')).length)
  | '\x60' :: rest => match rawTail rest with
    | some n => (.rawString, n + 1)
    | none => (.stray, 1 + rest.length)
  | '\x27' :: rest => match runeTail rest with
    | some n => (.rune, n + 1)
    | none => (.stray, 1)
  | c :: _ =>
    if isIdentifierStart c then
      let word := text.takeWhile isIdentifierPart
      (Tag.ofWord word, word.length)
    else match number? text with
      | some found => found
      | none => match sign? text with
        | some (sign, n) => (.sign sign, n)
        | none => (.stray, 1)
  | [] => (.stray, 1)

/-- The piece that a text begins with, and its length. -/
def lexeme (text : List Char) : Lexeme × Nat :=
  match text with
  | '\n' :: _ => (.lineFeed, 1)
  | '/' :: '/' :: rest => (.comment, 2 + (rest.takeWhile (· ≠ '\n')).length)
  | '/' :: '*' :: rest => match commentTail rest with
    | some n => (.comment, n + 2)
    | none => (.token (.sign .slash), 1)
  | c :: _ =>
    if isSpace c then (.blank, (text.takeWhile isSpace).length)
    else
      let (tag, n) := token text
      (.token tag, n)
  | [] => (.blank, 1)

/-- A piece of source and the stretch it covers. -/
structure Piece where
  lexeme : Lexeme
  start : Nat
  stop : Nat
deriving DecidableEq

/-- Cuts a text that begins at `offset`. Each round takes at least one
character, so as many rounds as characters are enough. -/
def piecesFrom : (rounds offset : Nat) → List Char → List Piece
  | 0, _, _ => []
  | _ + 1, _, [] => []
  | rounds + 1, offset, text =>
    let (found, n) := lexeme text
    ⟨found, offset, offset + n⟩ :: piecesFrom rounds (offset + n) (text.drop n)

/-- The pieces of a source. A byte order mark is blank at the very beginning
and stray anywhere else. -/
def pieces (source : List Char) : List Piece :=
  match source with
  | '\uFEFF' :: text => ⟨.blank, 0, 1⟩ :: piecesFrom text.length 1 text
  | text => piecesFrom text.length 0 text

/-- The tokens among the pieces. `pending` says that the last token can end a
statement and no line break has ended it yet. -/
def tokensAmong : (pending : Bool) → List Piece → List Token
  | _, [] => []
  | pending, piece :: rest =>
    match piece.lexeme with
    | .blank | .comment => tokensAmong pending rest
    | .lineFeed =>
      if pending then ⟨.lineBreak, piece.start, piece.stop⟩ :: tokensAmong false rest
      else tokensAmong false rest
    | .token tag => ⟨tag, piece.start, piece.stop⟩ :: tokensAmong tag.endsStatement rest

/-- The tokens of a source. -/
def tokens (source : List Char) : List Token := tokensAmong false (pieces source)

/-- The comments of a source. -/
def comments (source : List Char) : List Piece :=
  (pieces source).filter (·.lexeme == .comment)

end Assay.Syntax.Lexer
