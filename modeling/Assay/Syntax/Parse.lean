/-
Go source to syntax tree. A file is read in one pass over its tokens; what does
not fit the grammar makes the whole file fail, and `Assay.Syntax.Fault` says
where. Comments take no part in the grammar: they are put into the finished
tree, each into the innermost node that surrounds it.

A line break behind a token that can end a statement is read where a terminator
fits. Where none does, it is passed over if what comes behind it fits, so that a
brace may open on a line of its own.

A file may also hold statements outside any function, as snippets do, and the
declarations of functions, imports and packages need nothing between them.
-/
import Assay.Syntax.Lexer
import Assay.Syntax.Grammar.Statements

namespace Assay.Syntax

open Reader Grammar

-- ============================================================== the file

/-- The productions, closed by a bound on how deep they nest. -/
def descend : (depth : Nat) → Descent
  | 0, _ => failure
  | depth + 1, goal =>
    let sub := descend depth
    match goal with
    | .type => type sub
    | .expression literals => expression sub literals
    | .unary literals => unary sub literals
    | .literalValue => literalValue sub
    | .block => block sub
    | .statement => statement sub
    | .ifStatement => ifStatement sub

/-- One item of a file. Statements need a terminator; the declarations only a
file holds do not. -/
def fileItem (sub : Descent) : Reader Tree :=
  (do
    let declaration ← fileDeclaration sub
    let _ ← optional? terminator
    return declaration)
  <|> (do
    let statement ← sub .statement
    if statement.kind = .emptyStatement then
      let _ ← optional? terminator
    else terminator
    return statement)

/-- All items of a file. -/
def fileItems (sub : Descent) : Reader (List Tree) := many (fileItem sub)

/-- Each token opens at most this many levels of the grammar. -/
def levelsPerToken : Nat := 4

/-- What comes of reading the tokens of a file: its items, if the tokens are all
used up by them, and where the furthest token that fitted ends. -/
def readItems (tokens : List Token) : Option (List Tree) × Nat :=
  let depth := levelsPerToken * tokens.length + levelsPerToken
  match (fileItems (descend depth) ⟨tokens, 0⟩).run 0 with
  | (some (items, cursor), reached) =>
    (if cursor.tokens.isEmpty then some items else none, reached)
  | (none, reached) => (none, reached)

/-- The token at place `place` can be taken; past the last token, the whole
list makes a file. -/
def admits (tokens : List Token) (place : Nat) : Bool :=
  match readItems tokens, tokens[place]? with
  | (_, reached), some token => decide (token.stop ≤ reached)
  | (items, _), none => items.isSome

/-- What comes of reading the tokens of a file without the line breaks that are
passed over. -/
structure Reading where
  /-- The tokens that are left. -/
  tokens : List Token
  items : Option (List Tree)
  reached : Nat

/-- The first token that did not fit. -/
def Reading.place (reading : Reading) : Nat :=
  (reading.tokens.takeWhile (·.start < reading.reached)).length

/-- What is left when a line break is passed over: it is the first token that did
not fit, and the one behind it does. -/
def Reading.passOver? (reading : Reading) : Option (List Token) :=
  let others := reading.tokens.eraseIdx reading.place
  match reading.tokens[reading.place]? with
  | some token =>
    if token.tag = .lineBreak && admits others reading.place then some others else none
  | none => none

/-- Reads tokens, and again without a line break as long as one is passed over. -/
def readPassing : (rounds : Nat) → List Token → Reading
  | 0, tokens => ⟨tokens, (readItems tokens).1, (readItems tokens).2⟩
  | rounds + 1, tokens =>
    match readItems tokens with
    | (some items, reached) => ⟨tokens, some items, reached⟩
    | (none, reached) =>
      match Reading.passOver? ⟨tokens, none, reached⟩ with
      | some others => readPassing rounds others
      | none => ⟨tokens, none, reached⟩

/-- Reads the tokens of a file. A line break is passed over once, so as many
rounds as tokens are enough. -/
def readFile (tokens : List Token) : Reading := readPassing tokens.length tokens

-- ============================================================== comments

/-- The node for a comment. -/
def commentNode (piece : Lexer.Piece) : Tree :=
  .node ⟨.comment, none, piece.start, piece.stop⟩ []

/-- The comment lies strictly inside the tree. -/
def surrounds (tree : Tree) (piece : Lexer.Piece) : Bool :=
  decide (tree.start < piece.start) && decide (piece.stop < tree.stop)

mutual

/-- Puts comments that lie inside the tree into it. -/
def attach (comments : List Lexer.Piece) : Tree → Tree
  | .node label children => .node label (attachAll comments children)

/-- Puts comments, which come in source order, between or into the trees of a
list: first those before the next tree, then those inside it. -/
def attachAll (comments : List Lexer.Piece) : List Tree → List Tree
  | [] => comments.map commentNode
  | tree :: trees =>
    let before := comments.takeWhile (·.start < tree.start)
    let rest := comments.dropWhile (·.start < tree.start)
    let inside := rest.takeWhile (surrounds tree)
    before.map commentNode
      ++ attach inside tree
      :: attachAll (rest.dropWhile (surrounds tree)) trees

end

-- ================================================================ parsing

/-- The tree of a source with these items. -/
def sourceTree (source : List Char) (items : List Tree) : Tree :=
  .node ⟨.sourceFile, none, 0, source.length⟩ (attachAll (Lexer.comments source) items)

/-- The syntax tree of a source, if it has no syntax error. -/
def parse? (source : List Char) : Option Tree :=
  (readFile (Lexer.tokens source)).items.map (sourceTree source)

end Assay.Syntax
