/-
Where a source does not fit the grammar. A fault is placed by repairing the
source: tokens are left out or one missing token is put in, whichever costs
least, until the grammar goes on; what is left is searched for the next fault
in the same way. Leaving out tokens costs more the more of the source they
cover, so a single stray token is dropped, and a bracket that would take much
to drop is closed instead.

The faults are put into the tree that the repaired source has, each where it
lies, and listed from there. A source has no fault exactly when it parses.
-/
import Assay.Syntax.Draft
import Assay.Syntax.Parse
import Assay.Text.Lines
import Assay.Text.Utf8

namespace Assay.Syntax

/-- A fault and its place. Lines count from one, and so do columns, which are
bytes of the line. -/
structure Fault where
  line : Nat
  column : Nat
  kind : FaultKind
deriving DecidableEq

namespace Fault

/-- `line:column: what`. -/
def message (fault : Fault) : String :=
  toString fault.line ++ ":" ++ toString fault.column ++ ": " ++ fault.kind.message

/-- The fault at an offset. -/
def ofOffset (source : List Char) (offset : Nat) (kind : FaultKind) : Fault :=
  let start := Text.lineStart source offset
  let before := (source.drop start).take (offset - start)
  ⟨Text.rowOf source offset + 1, Text.Utf8.size before + 1, kind⟩

-- =============================================================== repairs

/-- A way past a fault: the tokens that it makes of the given ones. -/
structure Repair where
  cost : Nat
  fault : FaultLabel
  tokens : List Token

/-- Any repair costs this much. -/
def repairCost : Nat := 500

/-- Putting in a token costs this much more. -/
def insertionCost : Nat := 110

/-- What tokens left out of a source cost: by number, by bytes and by lines. -/
def omissionCost (source : List Char) (omitted : List Token) : Nat :=
  match omitted.head?, omitted.getLast? with
  | some first, some last =>
    let covered := (source.drop first.start).take (last.stop - first.start)
    repairCost + 100 * omitted.length + Text.Utf8.size covered + 30 * covered.count '\n'
  | _, _ => repairCost

/-- Drops line breaks that end nothing once the tokens before them are gone. -/
def settled : (pending : Bool) → List Token → List Token
  | _, [] => []
  | pending, token :: tokens =>
    if token.tag = .lineBreak && !pending then settled false tokens
    else token :: settled token.tag.endsStatement tokens

/-- Leaves out the tokens from `first` up to `stop`. -/
def omission (source : List Char) (tokens : List Token) (first stop : Nat) : Repair :=
  let omitted := (tokens.drop first).take (stop - first)
  { cost := omissionCost source omitted
    fault := ⟨.unexpected, (omitted.head?.map (·.start)).getD source.length,
      (omitted.getLast?.map (·.stop)).getD source.length⟩
    tokens := settled false (tokens.take first ++ tokens.drop stop) }

/-- The shortest stretch of tokens in front of `stop` without which the token
there fits. It begins at or before `first`. -/
def omission? (source : List Char) (tokens : List Token) (stop : Nat) : (first : Nat) →
    Option Repair
  | 0 => none
  | first + 1 =>
    let repair := omission source tokens first stop
    if admits repair.tokens first then some repair
    else omission? source tokens stop first

/-- The tokens that a repair may put in: those that close something, and a
name. -/
def insertable : List Tag :=
  [.sign .rightBrace, .sign .rightParen, .sign .rightBracket, .identifier]

/-- Puts a token in at `place`, when the one that was there then fits. At the
end of a source, another declaration has to fit. -/
def insertion? (source : List Char) (tokens : List Token) (place : Nat) (tag : Tag) :
    Option Repair :=
  let offset := ((tokens.take place).getLast?.map (·.stop)).getD 0
  let repaired := tokens.take place ++ ⟨tag, offset, offset⟩ :: tokens.drop place
  let probe := if place < tokens.length then repaired
    else repaired ++ [⟨.keyword .packageKey, source.length, source.length + 1⟩]
  if admits probe (place + 1) then
    some ⟨repairCost + insertionCost, ⟨.missing, offset, offset⟩, repaired⟩
  else none

/-- The cheaper of two repairs; of two that cost the same, the later. -/
def Repair.better (a b : Repair) : Repair :=
  if b.cost < a.cost || (b.cost = a.cost && a.fault.start < b.fault.start) then b else a

/-- The repair of tokens that fit up to `place` only. What begins no token at
all is always left out, with as much in front of it as that takes. -/
def repair (source : List Char) (tokens : List Token) (place : Nat) : Repair :=
  let isStray := (tokens[place]?.map (·.tag)) == some .stray
  let through := if place < tokens.length then omission? source tokens (place + 1) (place + 1)
    else none
  let others := if isStray then []
    else (omission? source tokens place place).toList
      ++ (insertable.findSome? (insertion? source tokens place)).toList
  match through.toList ++ others with
  | [] => omission source tokens 0 (place + 1)
  | first :: others => others.foldl Repair.better first

/-- What comes of repairing a source: its faults, first to last, and the items it
has when they are repaired. -/
structure Mended where
  faults : List FaultLabel
  items : List Tree

/-- Repairs tokens until they make a file. -/
def mend (source : List Char) : (rounds : Nat) → List Token → Mended
  | 0, _ => ⟨[], []⟩
  | rounds + 1, tokens =>
    let reading := readFile tokens
    match reading.items with
    | some items => ⟨[], items⟩
    | none =>
      let chosen := repair source reading.tokens reading.place
      let rest := mend source rounds chosen.tokens
      { rest with faults := chosen.fault :: rest.faults }

/-- Repairs a source. Each repair either drops a token or gets past one more,
so twice as many rounds as tokens are enough. -/
def mended (source : List Char) : Mended :=
  let tokens := Lexer.tokens source
  mend source (2 * tokens.length + 1) tokens

end Fault

/-- The syntax tree of a source, or of what it becomes when its faults are
repaired. -/
def parseMended (source : List Char) : Tree :=
  sourceTree source (Fault.mended source).items

/-- The syntax tree of a source with its faults. -/
def draft (source : List Char) : Draft :=
  .mark (Fault.mended source).faults (parseMended source)

/-- The faults of a source. -/
def faults (source : List Char) : List Fault :=
  (draft source).faults.map fun label => Fault.ofOffset source label.start label.kind

end Assay.Syntax
