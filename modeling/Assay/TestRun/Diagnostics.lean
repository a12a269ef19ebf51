/-
Finding what went wrong in the output of a test run.
-/
import Assay.Text.Blank
import Assay.Text.Digit
import Assay.Text.Lines
import Assay.Text.Search

namespace Assay.TestRun

open Text

-- ==================================================== compiler messages

/-- What follows a number and a colon. -/
def afterNumber? (text : List Char) : Option (List Char) :=
  match text.takeWhile isDecimal, text.dropWhile isDecimal with
  | _ :: _, ':' :: rest => some rest
  | _, _ => none

/-- What follows blanks, when there is at least one. -/
def messageAfterBlanks? : List Char → Option (List Char)
  | c :: text => if isBlank c then some (trimStart text) else none
  | [] => none

/-- The message after a position in a Go file that the text begins with. -/
def messageHere? (text : List Char) : Option (List Char) := do
  let text ← after? ".go:".toList text
  messageAfterBlanks? (← afterNumber? (← afterNumber? text))

/-- The message after the last position in the text. -/
def lastMessage? : List Char → Option (List Char)
  | [] => none
  | c :: text => (lastMessage? text).or (messageHere? (c :: text))

/-- The message of a line that reports a position in a Go file. The file has a
name, and the line is no package's heading. -/
def diagnostic? : List Char → Option (List Char)
  | [] => none
  | c :: line => if c = '#' then none else lastMessage? line

/-- The messages of a compiler, one a line. -/
def compileErrors (stderr : List Char) : List Char :=
  ((lines stderr).filterMap diagnostic?).flatMap (· ++ ['\n'])

-- ======================================================== test failures

/-- What shows that a test failed. -/
def failMarker : List Char := "--- FAIL:".toList

/-- What stands for a message that was not found. -/
def missingMessage : List Char := "Error message not found".toList

/-- The line after the first mention of an error; blanks before it, line breaks
included, are skipped. -/
def assertionMessage? (stdout : List Char) : Option (List Char) :=
  (splitOnce? "Error:".toList stdout).map fun (_, rest) =>
    trim ((trimStart rest).takeWhile (· ≠ '\n'))

/-- The first line that reports a panic. -/
def panicMessage? (stdout : List Char) : Option (List Char) :=
  ((lines stdout).map trim).find? (beginsWith "panic:".toList)

/-- The word is a position in a test file. -/
def isTestPosition (word : List Char) : Bool :=
  match word.reverse with
  | ':' :: before =>
    match before.takeWhile isDecimal, before.dropWhile isDecimal with
    | _ :: _, rest => match after? "_test.go:".toList.reverse rest with
      | some name => !name.isEmpty
      | none => false
    | [], _ => false
  | _ => false

/-- The message of an indented line that begins with a position in a test
file. -/
def loggedMessage? (line : List Char) : Option (List Char) := do
  let text ← messageAfterBlanks? line
  let word := text.takeWhile (!isBlank ·)
  if isTestPosition word then
    (messageAfterBlanks? (text.dropWhile (!isBlank ·))).map trim
  else none

/-- Why a test failed, when it did: the first assertion, else the first panic,
else the first logged line. -/
def failureMessage? (stdout : List Char) : Option (List Char) :=
  if occurs failMarker stdout then
    some (((assertionMessage? stdout).or (panicMessage? stdout)).or
      ((lines stdout).findSome? loggedMessage?) |>.getD missingMessage)
  else none

end Assay.TestRun
