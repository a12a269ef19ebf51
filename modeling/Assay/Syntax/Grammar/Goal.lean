/-
The productions that refer to each other in a circle. A production is written
against a `Descent`, which reads any of these goals one level further down; the
circle is closed once, in `Assay.Syntax.Parse`, by a bound on the depth. So no
production calls itself, and each can be understood alone.
-/
import Assay.Syntax.Reader

namespace Assay.Syntax.Grammar

/-- What can be asked of the level below. `literals` says whether a bare type
name may open a composite literal: in the header of a statement the brace
opens the block instead. -/
inductive Goal where
  | type
  | expression (literals : Bool)
  | unary (literals : Bool)
  | literalValue
  | block
  | statement
  | ifStatement

/-- A reader for each goal. -/
abbrev Descent := Goal → Reader Tree

end Assay.Syntax.Grammar
