/-
Trees of sources that need not fit the grammar. Where a source does not fit, its
tree has a fault: a node that says what is wrong with the stretch it covers, with
whatever could be read there below it. A tree without faults is a plain tree.

The faults of a tree are listed by a walk that goes below no fault, and into no
node that has none below it.
-/
import Assay.Syntax.Tree

namespace Assay.Syntax

/-- Something is there that does not fit, or something is not there. -/
inductive FaultKind where
  | unexpected
  | missing
deriving DecidableEq

/-- How a fault is described. -/
def FaultKind.message : FaultKind → String
  | .unexpected => "syntax error"
  | .missing => "missing token"

/-- What is known of a fault apart from what is below it. -/
structure FaultLabel where
  kind : FaultKind
  start : Nat
  stop : Nat
deriving DecidableEq

/-- A syntax tree that may have faults. -/
inductive Draft where
  | node (label : Label) (children : List Draft)
  | fault (label : FaultLabel) (children : List Draft)

namespace Draft

-- ============================================================ the faults

mutual

/-- Something is wrong with the tree. -/
def hasFault : Draft → Bool
  | node _ children => anyFault children
  | fault _ _ => true

/-- Something is wrong with one of the trees. -/
def anyFault : List Draft → Bool
  | [] => false
  | draft :: drafts => hasFault draft || anyFault drafts

end

mutual

/-- The faults that are below no other, first to last. -/
def collect : Draft → List FaultLabel
  | fault label _ => [label]
  | node _ children => if anyFault children then collectAll children else []

/-- Those of several trees, one tree after the other. -/
def collectAll : List Draft → List FaultLabel
  | [] => []
  | draft :: drafts => collect draft ++ collectAll drafts

end

/-- The faults of a tree. -/
def faults (draft : Draft) : List FaultLabel :=
  if draft.hasFault then draft.collect else []

mutual

/-- The plain tree, if nothing is wrong with it. -/
def tree? : Draft → Option Tree
  | node label children => (trees? children).map (.node label)
  | fault _ _ => none

/-- The plain trees, if nothing is wrong with any of them. -/
def trees? : List Draft → Option (List Tree)
  | [] => some []
  | draft :: drafts => do return (← tree? draft) :: (← trees? drafts)

end

-- ======================================================= putting them in

/-- The fault lies in the tree. -/
def covers (tree : Tree) (label : FaultLabel) : Bool :=
  decide (tree.start ≤ label.start) && decide (label.stop ≤ tree.stop)

mutual

/-- Puts faults that lie in a plain tree into it. -/
def mark (labels : List FaultLabel) : Tree → Draft
  | .node label children => .node label (markAll labels children)

/-- Puts faults, which come in source order, between or into the trees of a list:
first those before the next tree, then those in it. -/
def markAll (labels : List FaultLabel) : List Tree → List Draft
  | [] => labels.map (.fault · [])
  | tree :: trees =>
    let before := labels.takeWhile (·.start < tree.start)
    let rest := labels.dropWhile (·.start < tree.start)
    let inside := rest.takeWhile (covers tree)
    before.map (.fault · [])
      ++ mark inside tree
      :: markAll (rest.dropWhile (covers tree)) trees

end

end Draft

end Assay.Syntax
