/-
What stands between the tokens of a TOML document: blanks, comments and the
ends of lines. A carriage return counts only before a line feed.
-/

namespace Assay.Toml

/-- What texts and comments may hold: everything but control characters. -/
def isPrintable (c : Char) : Bool := c = '\t' || (' ' ≤ c && c ≠ '\x7f')

/-- A blank within a line. -/
def isSpace (c : Char) : Bool := c = ' ' || c = '\t'

/-- The text without the blanks it begins with. -/
def skipSpaces (text : List Char) : List Char := text.dropWhile isSpace

/-- What follows the end of a line. -/
def afterNewline? : List Char → Option (List Char)
  | '\n' :: rest => some rest
  | '\r' :: '\n' :: rest => some rest
  | _ => none

/-- The text without the comment it begins with. -/
def skipComment : List Char → List Char
  | '#' :: rest => rest.dropWhile isPrintable
  | text => text

/-- What follows a line with nothing left on it but blanks and a comment. The
end of the text ends a line too. -/
def afterLine? (text : List Char) : Option (List Char) :=
  match skipComment (skipSpaces text) with
  | [] => some []
  | rest => afterNewline? rest

/-- The text without the blanks and ends of lines it begins with. -/
def skipBlankLines : List Char → List Char
  | ' ' :: rest => skipBlankLines rest
  | '\t' :: rest => skipBlankLines rest
  | '\n' :: rest => skipBlankLines rest
  | '\r' :: '\n' :: rest => skipBlankLines rest
  | text => text

/-- What follows blanks, comments and ends of lines. A comment ends with its
line. -/
def skipFiller : (rounds : Nat) → List Char → Option (List Char)
  | 0, text => some text
  | rounds + 1, text =>
    match skipBlankLines text with
    | '#' :: rest => (afterNewline? (skipComment ('#' :: rest))).bind (skipFiller rounds)
    | rest => some rest

end Assay.Toml
