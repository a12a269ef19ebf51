/-
Code point tables. A table is a list of closed ranges, so membership is one
pass of comparisons; every table here covers the code points from 128 up, and
the ASCII part of a class is spelled out where the class is defined, so that
ordinary text never walks a table.
-/

namespace Assay.Text

/-- Closed ranges of code points. -/
abbrev Ranges := List (Nat × Nat)

/-- Some range of the table holds the code point of `c`. -/
def Ranges.holds (table : Ranges) (c : Char) : Bool :=
  table.any fun range => decide (range.1 ≤ c.toNat) && decide (c.toNat ≤ range.2)

/-- Closed runs of code points that advance by a fixed step: alphabets whose
cases alternate fill such runs with step two. -/
abbrev Runs := List (Nat × Nat × Nat)

/-- Some run of the table passes through the code point of `c`. -/
def Runs.holds (table : Runs) (c : Char) : Bool :=
  table.any fun run =>
    decide (run.1 ≤ c.toNat) && decide (c.toNat ≤ run.2.1) && (c.toNat - run.1) % run.2.2 == 0

end Assay.Text
