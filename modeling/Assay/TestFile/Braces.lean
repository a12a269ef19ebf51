/-
Removing a test from a file that does not parse. The test is found by the look
of its first line and ends where as many braces have closed as opened; braces
in strings and comments count like any others.
-/
import Assay.Text.Blank
import Assay.Text.Lines
import Assay.Text.Search
import Assay.Text.Word

namespace Assay.TestFile

open Text

-- =========================================================== the header

/-- The rest of a text after at least one blank. -/
def afterBlanks? : List Char → Option (List Char)
  | c :: text => if isBlank c then some (trimStart text) else none
  | [] => none

/-- The word that a text begins with, and the text after it. -/
def word? (text : List Char) : Option (List Char × List Char) :=
  match text.takeWhile isWord with
  | [] => none
  | word => some (word, text.dropWhile isWord)

/-- The name of the test function whose header a line begins with. -/
def headerName? (line : List Char) : Option (List Char) := do
  let text ← after? "func".toList line
  let (name, text) ← word? (← afterBlanks? text)
  let text ← after? ['('] (trimStart text)
  let (_, text) ← word? (trimStart text)
  let text ← after? "*testing.T".toList (← afterBlanks? text)
  let _ ← after? [')'] (trimStart text)
  return name

/-- The line begins the test with this name. -/
def isHeader (name : String) (line : List Char) : Bool := headerName? line == some name.toList

-- ============================================================ the block

/-- A test being removed: how many braces are open, and whether any ever
was. -/
structure Block where
  depth : Int
  opened : Bool
deriving DecidableEq

/-- Counts a line's braces. -/
def Block.count (block : Block) (line : List Char) : Block :=
  line.foldl (fun block c =>
    if c = '\x7b' then ⟨block.depth + 1, true⟩
    else if c = '\x7d' then { block with depth := block.depth - 1 }
    else block) block

/-- The block ends with the line just counted. -/
def Block.isClosed (block : Block) : Bool := block.opened && decide (block.depth ≤ 0)

/-- The lines that are not part of the test. `inside` is the block that the
lines are in, if they are in one. -/
def keptLines (name : String) (inside : Option Block) : List (List Char) → List (List Char)
  | [] => []
  | line :: lines =>
    let entered := match inside with
      | some block => some block
      | none => if isHeader name line then some ⟨0, false⟩ else none
    match entered with
    | none => line :: keptLines name none lines
    | some block =>
      let counted := block.count line
      keptLines name (if counted.isClosed then none else some counted) lines

/-- The text without the test of this name. -/
def withoutTest (name : String) (text : List Char) : List Char :=
  (keptLines name none (linesKept text)).flatten

end Assay.TestFile
