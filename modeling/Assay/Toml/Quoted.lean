/-
TOML's four ways to write a text: between single or double quotes, on one line
or on several. Double quotes admit escapes.
-/
import Assay.Text.Numeral
import Assay.Text.Search
import Assay.Toml.Space

namespace Assay.Toml

open Text

/-- The character an escape writes, and what follows it. The backslash has been
read. -/
def escaped? : List Char → Option (Char × List Char)
  | 'b' :: rest => some ('\x08', rest)
  | 't' :: rest => some ('\t', rest)
  | 'n' :: rest => some ('\n', rest)
  | 'f' :: rest => some ('\x0c', rest)
  | 'r' :: rest => some ('\r', rest)
  | '\x22' :: rest => some ('\x22', rest)
  | '\x5c' :: rest => some ('\x5c', rest)
  | 'u' :: rest => codePoint? 4 rest
  | 'U' :: rest => codePoint? 8 rest
  | _ => none

/-- The text up to the closing double quote, and what follows that. -/
def basicText? : (rounds : Nat) → List Char → Option (List Char × List Char)
  | 0, _ => none
  | _, [] => none
  | _ + 1, '\x22' :: rest => some ([], rest)
  | rounds + 1, '\x5c' :: rest => do
    let (c, rest) ← escaped? rest
    let (text, rest) ← basicText? rounds rest
    return (c :: text, rest)
  | rounds + 1, c :: rest => do
    guard (isPrintable c)
    let (text, rest) ← basicText? rounds rest
    return (c :: text, rest)

/-- The text up to the closing single quote, and what follows that. -/
def literalText? (text : List Char) : Option (List Char × List Char) :=
  match text.span (· ≠ '\x27') with
  | (chars, _ :: rest) => if chars.all isPrintable then some (chars, rest) else none
  | (_, []) => none

/-- What follows a backslash that joins lines. -/
def afterJoint? (text : List Char) : Option (List Char) :=
  (afterNewline? (skipSpaces text)).map skipBlankLines

/-- The text up to three closing quotes, and what follows them. Up to two more
quotes before those belong to the text. Ends of lines are read as line feeds. -/
def longText? (quote : Char) : (rounds : Nat) → List Char → Option (List Char × List Char)
  | 0, _ => none
  | rounds + 1, text =>
    match after? [quote, quote, quote] text, text with
    | some rest, _ =>
      let inner := min 2 (rest.takeWhile (· = quote)).length
      some (List.replicate inner quote, rest.drop inner)
    | none, [] => none
    | none, c :: rest =>
      if c = '\x5c' && quote = '\x22' then
        match afterJoint? rest with
        | some rest => longText? quote rounds rest
        | none => do
          let (c, rest) ← escaped? rest
          let (text, rest) ← longText? quote rounds rest
          return (c :: text, rest)
      else match afterNewline? (c :: rest) with
        | some rest => do
          let (text, rest) ← longText? quote rounds rest
          return ('\n' :: text, rest)
        | none => do
          guard (isPrintable c)
          let (text, rest) ← longText? quote rounds rest
          return (c :: text, rest)

/-- The text without the end of a line that it begins with. -/
def skipNewline (text : List Char) : List Char := (afterNewline? text).getD text

/-- A text on one line, and what follows it. -/
def lineText? : List Char → Option (List Char × List Char)
  | '\x22' :: rest => basicText? (rest.length + 1) rest
  | '\x27' :: rest => literalText? rest
  | _ => none

/-- A text in any of the four forms, and what follows it. -/
def quotedText? : List Char → Option (List Char × List Char)
  | '\x22' :: '\x22' :: '\x22' :: rest => longText? '\x22' (rest.length + 1) (skipNewline rest)
  | '\x27' :: '\x27' :: '\x27' :: rest => longText? '\x27' (rest.length + 1) (skipNewline rest)
  | text => lineText? text

end Assay.Toml
