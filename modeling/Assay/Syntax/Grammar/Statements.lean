/-
Statements. Three of them begin alike and are told apart only after their first
part: the header of `if`, `for` and `switch` reads a simple statement and then
sees whether a semicolon, a `range` or a type guard follows. In such a header a
brace opens the block, so type names open no literals there.
-/
import Assay.Syntax.Grammar.Declarations

namespace Assay.Syntax.Grammar

open Reader

variable (sub : Descent)

-- ==================================================== simple statements

/-- An assignment sign, plain or joined with an operator. -/
def isAssignment : Tag → Bool
  | .sign .assign | .sign .compound => true
  | _ => false

/-- What a list of expressions becomes when no sign follows: a statement of one
expression. -/
def expressionStatement (list : Tree) : Reader Tree :=
  match list.namedChildren with
  | [only] => close .expressionStatement list.start [only]
  | _ => failure

/-- The one expression of a list. -/
def single (list : Tree) : Reader Tree :=
  match list.namedChildren with
  | [only] => return only
  | _ => failure

/-- A statement that contains no block of its own. -/
def simpleStatement (literals : Bool) : Reader Tree := do
  let lhs ← expressionList sub literals
  match ← next with
  | some (.sign .define) => do
    sign .define
    let rhs ← expressionList sub literals
    close .shortVarDeclaration lhs.start [lhs.withRole .left, rhs.withRole .right]
  | some (.sign .arrow) => do
    let channel ← single lhs
    sign .arrow
    let value ← sub (.expression literals)
    close .sendStatement lhs.start [channel.withRole .channel, value.withRole .value]
  | some (.sign .increment) => do
    let operand ← single lhs
    sign .increment
    close .incStatement lhs.start [operand]
  | some (.sign .decrement) => do
    let operand ← single lhs
    sign .decrement
    close .decStatement lhs.start [operand]
  | some tag =>
    if isAssignment tag then do
      let operator ← take
      let rhs ← expressionList sub literals
      close .assignmentStatement lhs.start [
        lhs.withRole .left, (leaf .sign operator).withRole .operator, rhs.withRole .right]
    else expressionStatement lhs
  | none => expressionStatement lhs

/-- The expression of a statement that is nothing else. -/
def conditionOf (statement : Tree) : Reader Tree :=
  match statement.kind, statement.children with
  | .expressionStatement, [only] => return only
  | _, _ => failure

-- =============================================================== blocks

/-- What a label names. -/
def label : Reader Tree := do
  let word ← name .labelName
  return word.withRole .label

/-- A statement, or at the end of a block a label with none. -/
def statementOrLabel : Reader Tree :=
  sub .statement <|> (node .labeledStatement do
    let word ← label
    sign .colon
    return [word])

/-- Statements with terminators between them. An empty statement is its own
terminator. -/
def statements : (rounds : Nat) → Reader (List Tree)
  | 0 => return []
  | rounds + 1 => do
    match ← optional? (statementOrLabel sub) with
    | none => return []
    | some statement =>
      if statement.kind = .emptyStatement then
        let _ ← optional? terminator
        return statement :: (← statements rounds)
      else match ← optional? terminator with
        | none => return [statement]
        | some () => return statement :: (← statements rounds)

/-- The statements up to a brace or the next case. -/
def statementList : Reader (List Tree) := do statements sub (← left)

/-- Statements in braces. -/
def block : Reader Tree := node .block do
  sign .leftBrace
  let body ← statementList sub
  sign .rightBrace
  return body

-- ============================================== conditions and loops

/-- `if`, with everything that follows an `else`. -/
def ifStatement : Reader Tree := node .ifStatement do
  keyword .ifKey
  let first ← simpleStatement sub false
  let header ← if ← accept .semicolon then do
      let condition ← sub (.expression false)
      pure [first.withRole .initializer, condition.withRole .condition]
    else do
      let condition ← conditionOf first
      pure [condition.withRole .condition]
  let consequence ← sub .block
  let alternative ← if ← seesKeyword .elseKey then do
      keyword .elseKey
      let other ← if ← seesKeyword .ifKey then sub .ifStatement else sub .block
      pure [other.withRole .alternative]
    else pure []
  return header ++ consequence.withRole .consequence :: alternative

/-- `range` over something, with the variables it sets, if any. -/
def rangeClause : Reader Tree := node .rangeClause do
  let targets ← if ← seesKeyword .rangeKey then pure []
    else do
      let targets ← expressionList sub false
      let operator ← takeIf fun tag => tag == .sign .define || tag == .sign .assign
      pure [targets.withRole .left, (leaf .sign operator).withRole .operator]
  keyword .rangeKey
  let right ← sub (.expression false)
  return targets ++ [right.withRole .right]

/-- The three parts of a counting loop, each of which may be missing. -/
def forClause : Reader Tree := node .forClause do
  let initializer ← if ← seesSign .semicolon then pure none
    else some <$> simpleStatement sub false
  sign .semicolon
  let condition ← if ← seesSign .semicolon then pure none
    else some <$> sub (.expression false)
  sign .semicolon
  let update ← if ← seesSign .leftBrace then pure none
    else some <$> simpleStatement sub false
  return (initializer.map (·.withRole .initializer)).toList
    ++ (condition.map (·.withRole .condition)).toList
    ++ (update.map (·.withRole .update)).toList

/-- A loop with any of its headers, or without one. -/
def forStatement : Reader Tree := node .forStatement do
  keyword .forKey
  let header ← if ← seesSign .leftBrace then pure []
    else (fun header => [header]) <$>
      (rangeClause sub <|> forClause sub <|> sub (.expression false))
  let body ← sub .block
  return header ++ [body.withRole .body]

-- ============================================================= switches

/-- The statements after the colon of a case. -/
def caseBody : Reader (List Tree) := do
  sign .colon
  statementList sub

/-- The case that is taken when no other is. -/
def defaultCase : Reader Tree := node .defaultCase do
  keyword .defaultKey
  caseBody sub

/-- A case of a switch over values. -/
def expressionCase : Reader Tree := node .expressionCase do
  keyword .caseKey
  let values ← expressionList sub true
  return values.withRole .value :: (← caseBody sub)

/-- A case of a switch over types. -/
def typeCase : Reader Tree := node .typeCase do
  keyword .caseKey
  let types ← commaSeparated (typeAs sub .type)
  return types ++ (← caseBody sub)

/-- The braces of a switch. -/
def cases (oneCase : Reader Tree) : Reader (List Tree) := do
  sign .leftBrace
  let found ← many (oneCase <|> defaultCase sub)
  sign .rightBrace
  return found

/-- The guard of a type switch after the statement that leads to it: the
variable it binds, if any, and the value whose type decides. -/
def typeGuard (statement : Tree) : Reader (List Tree) := do
  sign .dot
  sign .leftParen
  keyword .typeKey
  sign .rightParen
  match statement.kind, statement.part? .left, statement.part? .right with
  | .shortVarDeclaration, some bound, some values =>
    return [bound.withRole .guard, (← single values).withRole .value]
  | _, _, _ => return [(← conditionOf statement).withRole .value]

/-- A switch over values or over types. -/
def switchStatement : Reader Tree := do
  let start ← here
  keyword .switchKey
  let first ← if (← seesSign .leftBrace) || (← seesSign .semicolon) then pure none
    else some <$> simpleStatement sub false
  let initialized ← accept .semicolon
  let initializer := if initialized then (first.map (·.withRole .initializer)).toList else []
  let subject ← if initialized then
      if ← seesSign .leftBrace then pure none else some <$> simpleStatement sub false
    else pure first
  match subject with
  | none =>
    let found ← cases sub (expressionCase sub)
    close .expressionSwitchStatement start (initializer ++ found)
  | some statement =>
    if ← seesTypeGuard then
      let guard ← typeGuard statement
      let found ← cases sub (typeCase sub)
      close .typeSwitchStatement start (initializer ++ guard ++ found)
    else
      let value ← conditionOf statement
      let found ← cases sub (expressionCase sub)
      close .expressionSwitchStatement start (initializer ++ value.withRole .value :: found)

/-- What a case of a `select` waits for: a value sent, or a value received. -/
def communication : Reader Tree := do
  let start ← here
  let statement ← simpleStatement sub true
  match statement.kind with
  | .sendStatement => return statement
  | .shortVarDeclaration | .assignmentStatement =>
    match statement.part? .left, statement.part? .right with
    | some targets, some values =>
      close .receiveStatement start [targets, (← single values).withRole .right]
    | _, _ => failure
  | _ => close .receiveStatement start [(← conditionOf statement).withRole .right]

/-- A case of a `select`. -/
def communicationCase : Reader Tree := node .communicationCase do
  keyword .caseKey
  let first ← communication sub
  return first.withRole .communication :: (← caseBody sub)

/-- `select` and its cases. -/
def selectStatement : Reader Tree := node .selectStatement do
  keyword .selectKey
  cases sub (communicationCase sub)

-- =========================================================== statements

/-- A jump, to a label when one is named. -/
def jump (kind : Kind) (word : Keyword) : Reader Tree := node kind do
  keyword word
  let target ← optional? label
  return target.toList

/-- A statement. -/
def statement : Reader Tree := do
  match ← next, ← ahead 1 with
  | some (.keyword .constKey), _ | some (.keyword .varKey), _ | some (.keyword .typeKey), _ =>
    declaration sub
  | some (.keyword .returnKey), _ => node .returnStatement do
    keyword .returnKey
    let values ← optional? (expressionList sub true)
    return values.toList
  | some (.keyword .goKey), _ => node .goStatement do
    keyword .goKey
    return [← sub (.expression true)]
  | some (.keyword .deferKey), _ => node .deferStatement do
    keyword .deferKey
    return [← sub (.expression true)]
  | some (.keyword .ifKey), _ => sub .ifStatement
  | some (.keyword .forKey), _ => forStatement sub
  | some (.keyword .switchKey), _ => switchStatement sub
  | some (.keyword .selectKey), _ => selectStatement sub
  | some (.keyword .fallthroughKey), _ => node .fallthroughStatement do
    keyword .fallthroughKey
    return []
  | some (.keyword .breakKey), _ => jump .breakStatement .breakKey
  | some (.keyword .continueKey), _ => jump .continueStatement .continueKey
  | some (.keyword .gotoKey), _ => node .gotoStatement do
    keyword .gotoKey
    return [← label]
  | some (.sign .leftBrace), _ => sub .block
  | some (.sign .semicolon), _ => node .emptyStatement do
    sign .semicolon
    return []
  | some first, some (.sign .colon) =>
    if isName first then node .labeledStatement do
      let word ← label
      sign .colon
      return [word, ← sub .statement]
    else simpleStatement sub true
  | _, _ => simpleStatement sub true

end Assay.Syntax.Grammar
