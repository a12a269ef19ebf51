/-
Declarations that a new test replaces, as stretches of the file's text. A
stretch is widened to whole lines, to the comments directly above the
declaration, and to one blank line after it.
-/
import Assay.TestFile.Declared

namespace Assay.TestFile

open Syntax

/-- A stretch of text, by its ends. -/
structure Span where
  start : Nat
  stop : Nat
deriving DecidableEq

-- ============================================================ staleness

/-- The function takes one argument, a `*testing.T`. -/
def takesTestingT (source : List Char) (function : Tree) : Bool :=
  match (function.part? .parameters).map (·.namedChildren) with
  | some [parameter] =>
    parameter.kind == .parameterDeclaration && decide ((parameter.parts .name).length ≤ 1)
      && match ((parameter.part? .type).filter (·.kind == .pointerType)).bind (·.firstNamed?) with
        | some inner => inner.kind == .qualifiedType && inner.text source == "testing.T"
        | none => false
  | _ => false

/-- The declaration makes way for the new ones: a method declared again, a
single specification or a function with a name declared again. A function that
has the test's name but is no test stays. -/
def isStale (source : List Char) (declared : Declared) (declaration : Tree) : Bool :=
  let names := declaredNames source declaration
  match declaration.kind with
  | .methodDeclaration => match methodKey? source declaration with
    | some key => declared.methods.contains key
    | none => false
  | .typeDeclaration | .varDeclaration | .constDeclaration =>
    (specs declaration).length == 1 && names.any declared.names.contains
  | .functionDeclaration =>
    names.any fun name =>
      declared.names.contains name && (name != declared.test || takesTestingT source declaration)
  | _ => false

-- ================================================================ spans

/-- Where the comments directly above `start` begin; `before` holds what comes
before it, the nearest first. -/
def commentsStart (source : List Char) (start : Nat) : (before : List Tree) → Nat
  | [] => start
  | node :: before =>
    if node.kind = .comment && Text.rowOf source node.stop + 1 == Text.rowOf source start then
      commentsStart source node.start before
    else start

/-- The stretch of a declaration with what is directly above it. -/
def spanOf (source : List Char) (before : List Tree) (declaration : Tree) : Span :=
  let stop := Text.lineEnd source declaration.stop
  ⟨Text.lineStart source (commentsStart source declaration.start before),
    if (source.drop stop).head? = some '\n' then stop + 1 else stop⟩

/-- The stretches of stale declarations in order; `before` holds the nodes
already passed, the nearest first. -/
def staleSpans (source : List Char) (declared : Declared) (before : List Tree) :
    List Tree → List Span
  | [] => []
  | node :: nodes =>
    let rest := staleSpans source declared (node :: before) nodes
    if isStale source declared node then spanOf source before node :: rest else rest

/-- The text without some stretches, given by their starts in order; `passed`
characters of the text have been passed before. -/
def cutFrom (passed : Nat) (text : List Char) : List Span → List Char
  | [] => text
  | span :: spans =>
    if span.start < passed then
      cutFrom (max passed span.stop) (text.drop (span.stop - passed)) spans
    else
      text.take (span.start - passed)
        ++ cutFrom (max passed span.stop) (text.drop (span.stop - passed)) spans

/-- The text without some stretches. -/
def cut (text : List Char) (spans : List Span) : List Char := cutFrom 0 text spans

end Assay.TestFile
