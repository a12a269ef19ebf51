/-
What a user is told while the program works.
-/

namespace Assay

/-- How much a line matters. -/
inductive Level where
  | info
  | success
  | warn
  | error
deriving DecidableEq

/-- A line of the journal. -/
structure JournalLine where
  level : Level
  text : String
deriving DecidableEq

namespace JournalLine

/-- The line as it is printed. -/
def printed (line : JournalLine) : String :=
  match line.level with
  | .warn => "warning: " ++ line.text ++ "\n"
  | .error => "error: " ++ line.text ++ "\n"
  | .info | .success => line.text ++ "\n"

end JournalLine

/-- The lines as they are printed. -/
def printedJournal (lines : List JournalLine) : String := String.join (lines.map (·.printed))

end Assay
