/-
How many lines an edit adds and removes, counted on a smallest edit script: a
line that a longest common subsequence keeps is neither. The subsequence's
length is found row by row, so two texts of `m` and `n` lines cost `m * n`
comparisons and one row of memory.
-/
import Assay.Text.Lines

namespace Assay.Text

/-- One row of the table of common subsequence lengths. `above` is the row for
the lines before `line`, `diagonal` its entry to the left of the current
column and `left` the entry just computed. -/
def commonRow (line : List Char) : (new : List (List Char)) → (above : List Nat) →
    (diagonal left : Nat) → List Nat
  | candidate :: new, up :: above, diagonal, left =>
    let entry := if line = candidate then diagonal + 1 else max up left
    entry :: commonRow line new above up entry
  | _, _, _, _ => []

/-- The length of a longest common subsequence of two lists of lines. -/
def commonLines (old new : List (List Char)) : Nat :=
  let last := old.foldl (fun row line => commonRow line new row 0 0) (new.map fun _ => 0)
  last.getLastD 0

/-- Lines added to and removed from a text by an edit. -/
structure LineChanges where
  added : Nat
  removed : Nat
deriving DecidableEq

/-- The changes of a smallest edit from `old` to `new`. -/
def lineChanges (old new : List Char) : LineChanges :=
  let before := linesCompared old
  let now := linesCompared new
  let kept := commonLines before now
  ⟨now.length - kept, before.length - kept⟩

end Assay.Text
