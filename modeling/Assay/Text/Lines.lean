/-
Lines of a text, in the three senses the program needs: lines that keep their
line feed, lines without their ending, and lines for comparison, where a lone
carriage return ends a line as well.
-/

namespace Assay.Text

/-- The pieces that end at a line feed, the feed included; an empty text has
none, and the last piece may lack its feed. -/
def linesKept : List Char → List (List Char)
  | [] => []
  | c :: text =>
    if c = '\n' then [c] :: linesKept text
    else match linesKept text with
      | [] => [[c]]
      | line :: lines => (c :: line) :: lines

/-- A line without its line feed, and without the carriage return before that
feed. A carriage return that no feed follows stays. -/
def withoutEnding (line : List Char) : List Char :=
  match line.reverse with
  | '\n' :: '\r' :: body => body.reverse
  | '\n' :: body => body.reverse
  | _ => line

/-- The lines of a text without their endings. -/
def lines (text : List Char) : List (List Char) := (linesKept text).map withoutEnding

/-- The pieces that end at a line feed, at a carriage return with a line feed,
or at a lone carriage return, endings included. -/
def linesCompared : List Char → List (List Char)
  | [] => []
  | '\r' :: '\n' :: text => ['\r', '\n'] :: linesCompared text
  | c :: text =>
    if c = '\n' || c = '\r' then [c] :: linesCompared text
    else match linesCompared text with
      | [] => [[c]]
      | line :: lines => (c :: line) :: lines

/-- The offset at which the line through offset `at` begins. -/
def lineStart (text : List Char) (offset : Nat) : Nat :=
  offset - ((text.take offset).reverse.takeWhile (· ≠ '\n')).length

/-- The offset just past the line feed at or after offset `at`, or the end of
the text. -/
def lineEnd (text : List Char) (offset : Nat) : Nat :=
  let rest := text.drop offset
  let body := rest.takeWhile (· ≠ '\n')
  if body.length < rest.length then offset + body.length + 1 else text.length

/-- How many line feeds come before offset `at`. -/
def rowOf (text : List Char) (offset : Nat) : Nat := (text.take offset).count '\n'

end Assay.Text
