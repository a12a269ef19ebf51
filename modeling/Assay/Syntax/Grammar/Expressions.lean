/-
Expressions. Go leaves it to the type checker whether `T(x)` converts or calls
and whether `a[b]` indexes or instantiates, and a reader without types has to
choose: a name in front of parentheses is called, brackets whose contents read
as types are type arguments when a call or a literal follows and an index
otherwise, and only a type that is no expression at all makes a conversion.
-/
import Assay.Syntax.Grammar.Types

namespace Assay.Syntax.Grammar

open Reader

variable (sub : Descent) (literals : Bool)

/-- An expression in some part of its parent. Inside brackets and parentheses a
type name may always open a literal. -/
def expressionAs (role : Role) : Reader Tree := do
  return (← sub (.expression true)).withRole role

-- ============================================================= operators

/-- How tightly a binary operator binds; `none` for other tokens. -/
def precedence? : Tag → Option Nat
  | .sign .orOr => some 1
  | .sign .andAnd => some 2
  | .sign .equal | .sign .notEqual | .sign .less | .sign .lessEqual | .sign .greater
  | .sign .greaterEqual => some 3
  | .sign .plus | .sign .minus | .sign .pipe | .sign .caret => some 4
  | .sign .star | .sign .slash | .sign .percent | .sign .shiftLeft | .sign .shiftRight
  | .sign .ampersand | .sign .andNot => some 5
  | _ => none

/-- The signs that stand in front of an operand. -/
def isUnary : Tag → Bool
  | .sign .plus | .sign .minus | .sign .bang | .sign .caret | .sign .star | .sign .ampersand
  | .sign .arrow => true
  | _ => false

/-- Goes on after a left operand as long as operators bind at least as tightly
as `least`. -/
def climb : (rounds least : Nat) → (lhs : Tree) → Reader Tree
  | 0, _, lhs => return lhs
  | rounds + 1, least, lhs => do
    match (← next).bind precedence? with
    | none => return lhs
    | some level =>
      if level < least then return lhs
      else
        let operator ← take
        let operand ← sub (.unary literals)
        let rhs ← climb rounds (level + 1) operand
        let whole ← close .binaryExpression lhs.start [
          lhs.withRole .left, (leaf .sign operator).withRole .operator, rhs.withRole .right]
        climb rounds least whole

/-- Any expression. -/
def expression : Reader Tree := do
  let lhs ← sub (.unary literals)
  climb sub literals (← left) 1 lhs

/-- One or more expressions. -/
def expressionList : Reader Tree := node .expressionList do
  commaSeparated (sub (.expression literals))

-- ============================================================== literals

/-- An element of a composite literal, or the key of one. -/
def literalElement : Reader Tree := node .literalElement do
  if ← seesSign .leftBrace then return [← sub .literalValue]
  else return [← sub (.expression true)]

/-- An element with its key, if it has one. -/
def keyedElement : Reader Tree := do
  let start ← here
  let first ← literalElement sub
  if ← accept .colon then
    let second ← literalElement sub
    close .keyedElement start [first.withRole .key, second.withRole .value]
  else return first

/-- The braces of a composite literal. -/
def literalValue : Reader Tree := node .literalValue do
  sign .leftBrace
  let elements ← optional? (commaSeparated (keyedElement sub))
  if elements.isSome then
    let _ ← accept .comma
  sign .rightBrace
  return elements.getD []

/-- The composite literal of a type that has been read. -/
def compositeLiteral (type : Tree) : Reader Tree := do
  let body ← sub .literalValue
  close .compositeLiteral type.start [type.withRole .type, body.withRole .body]

-- ================================================================= calls

/-- An argument, which may be spread over the remaining parameters. -/
def argument : Reader Tree := do
  let start ← here
  let value ← sub (.expression true)
  if ← accept .ellipsis then close .variadicArgument start [value] else return value

/-- The arguments of a call. -/
def argumentList : Reader Tree := node .argumentList do
  sign .leftParen
  let arguments ← optional? (commaSeparated (argument sub))
  if arguments.isSome then
    let _ ← accept .comma
  sign .rightParen
  return arguments.getD []

/-- The arguments of `new` and `make`, the first of which is a type. -/
def allocationList : Reader Tree := node .argumentList do
  sign .leftParen
  if ← accept .rightParen then return []
  else
    let type ← sub .type
    let more ← many (do sign .comma; sub (.expression true))
    let _ ← accept .comma
    sign .rightParen
    return type :: more

/-- The conversion to a type that has been read. -/
def conversion (type : Tree) : Reader Tree := do
  sign .leftParen
  let operand ← expressionAs sub .operand
  let _ ← accept .comma
  sign .rightParen
  close .typeConversionExpression type.start [type.withRole .type, operand]

/-- What follows a type where an expression was wanted: the braces of a literal
or the parentheses of a conversion. -/
def typedOperand (type : Tree) : Reader Tree := do
  match ← next, type.kind with
  | some (.sign .leftBrace), .sliceType | some (.sign .leftBrace), .arrayType
  | some (.sign .leftBrace), .implicitLengthArrayType | some (.sign .leftBrace), .mapType
  | some (.sign .leftBrace), .structType => compositeLiteral sub type
  | some (.sign .leftParen), _ => conversion sub type
  | _, _ => failure

/-- A function literal, or a conversion to a function type. -/
def functionOperand : Reader Tree := do
  let start ← here
  keyword .funcKey
  let parts ← signature sub
  if ← seesSign .leftBrace then
    let body ← sub .block
    close .funcLiteral start (parts ++ [body.withRole .body])
  else
    let type ← close .functionType start parts
    conversion sub type

-- ============================================================== operands

/-- What a predeclared word is as an expression. -/
def predeclaredKind : Predeclared → Kind
  | .nilWord => .nilLiteral
  | .trueWord => .trueLiteral
  | .falseWord => .falseLiteral
  | .iotaWord => .iotaLiteral
  | .newWord | .makeWord => .identifier

/-- The kind of a literal of one token. -/
def basicLiteral? : Tag → Option Kind
  | .int => some .intLiteral
  | .float => some .floatLiteral
  | .imaginary => some .imaginaryLiteral
  | .rune => some .runeLiteral
  | .rawString => some .rawStringLiteral
  | .quotedString => some .interpretedStringLiteral
  | _ => none

/-- `new` or `make`, called or merely named. -/
def allocation : Reader Tree := do
  let word ← take
  let callee := leaf .identifier word
  if ← seesSign .leftParen then
    let arguments ← allocationList sub
    close .callExpression word.start [callee.withRole .function, arguments.withRole .arguments]
  else return callee

/-- An expression in parentheses; or else a type in parentheses, which is then
converted to. -/
def parenthesized : Reader Tree :=
  (node .parenthesizedExpression do
    sign .leftParen
    let inner ← sub (.expression true)
    sign .rightParen
    return [inner])
  <|> (do
    let type ← type sub
    conversion sub type)

/-- An operand without anything after it. -/
def operand : Reader Tree := do
  match ← next with
  | some .identifier | some .blank => name .identifier
  | some (.predeclared .newWord) | some (.predeclared .makeWord) => allocation sub
  | some (.predeclared word) => return leaf (predeclaredKind word) (← take)
  | some (.sign .leftParen) => parenthesized sub
  | some (.keyword .funcKey) => functionOperand sub
  | some (.sign .leftBracket) | some (.keyword .structKey) | some (.keyword .mapKey)
  | some (.keyword .chanKey) | some (.keyword .interfaceKey) => do
    let type ← type sub
    typedOperand sub type
  | some tag => match basicLiteral? tag with
    | some kind => return leaf kind (← take)
    | none => failure
  | none => failure

/-- The expression read as a type's name, if it can be one. -/
def asTypeName? (tree : Tree) : Option Tree :=
  match tree.kind, tree.part? .operand, tree.part? .field with
  | .identifier, _, _ => some (tree.withKind .typeIdentifier)
  | .selectorExpression, some package, some member =>
    if package.kind = .identifier then
      some (.node { tree.label with kind := .qualifiedType } [
        (package.withKind .packageIdentifier).withRole .package,
        (member.withKind .typeIdentifier).withRole .name])
    else none
  | _, _, _ => none

-- ============================================================== suffixes

/-- `x.name`, or `x.(T)`. The guard of a type switch is left alone: it belongs
to the statement. -/
def dotSuffix (base : Tree) : Reader Tree := do
  sign .dot
  if ← accept .leftParen then
    let type ← typeAs sub .type
    sign .rightParen
    close .typeAssertionExpression base.start [base.withRole .operand, type]
  else
    let member ← name .fieldIdentifier
    close .selectorExpression base.start [base.withRole .operand, member.withRole .field]

/-- Type arguments between an expression and its call or its literal. -/
def instantiated (base : Tree) : Reader Tree := do
  let arguments ← typeArguments sub
  match ← next, asTypeName? base with
  | some (.sign .leftParen), _ =>
    let values ← argumentList sub
    close .callExpression base.start [
      base.withRole .function, arguments.withRole .typeArguments, values.withRole .arguments]
  | some (.sign .leftBrace), some typeName =>
    if literals then
      let type : Tree := .node ⟨.genericType, none, base.start, arguments.stop⟩
        [typeName.withRole .type, arguments.withRole .typeArguments]
      compositeLiteral sub type
    else failure
  | _, _ => failure

/-- `x[i]`, or `x[i:j]` with any of its bounds missing. -/
def indexSuffix (base : Tree) : Reader Tree := do
  sign .leftBracket
  let first ← optional? (sub (.expression true))
  match first with
  | some index =>
    if ← accept .rightBracket then
      return (← close .indexExpression base.start [
        base.withRole .operand, index.withRole .index])
  | none => pure ()
  sign .colon
  let second ← optional? (sub (.expression true))
  let third ← if second.isSome && (← accept .colon) then some <$> sub (.expression true)
    else pure none
  sign .rightBracket
  close .sliceExpression base.start
    (base.withRole .operand :: (first.toList ++ second.toList ++ third.toList))

/-- A generic type or function that is instantiated and not used further. -/
def bareInstantiation (base : Tree) : Reader Tree := do
  match asTypeName? base with
  | none => failure
  | some typeName =>
    sign .leftBracket
    let arguments ← commaSeparated (sub .type)
    let _ ← accept .comma
    sign .rightBracket
    close .typeInstantiationExpression base.start (typeName.withRole .type :: arguments)

/-- The guard of a type switch stands next: `.(type)`. -/
def seesTypeGuard : Reader Bool := do
  return (← next) == some (.sign .dot) && (← ahead 1) == some (.sign .leftParen)
    && (← ahead 2) == some (.keyword .typeKey)

/-- One suffix of an operand; fails where the expression ends. -/
def suffix (base : Tree) : Reader Tree := do
  match ← next with
  | some (.sign .dot) => if ← seesTypeGuard then failure else dotSuffix sub base
  | some (.sign .leftParen) => do
    let arguments ← argumentList sub
    close .callExpression base.start [
      base.withRole .function, arguments.withRole .arguments]
  | some (.sign .leftBracket) =>
    instantiated sub literals base <|> indexSuffix sub base <|> bareInstantiation sub base
  | some (.sign .leftBrace) => match asTypeName? base with
    | some type => if literals then compositeLiteral sub type else failure
    | none => failure
  | _ => failure

/-- Suffixes as long as there are any. -/
def suffixes : (rounds : Nat) → (base : Tree) → Reader Tree
  | 0, base => return base
  | rounds + 1, base => do
    match ← optional? (suffix sub literals base) with
    | none => return base
    | some whole => suffixes rounds whole

/-- An operand with its suffixes, or a unary operator in front of one. -/
def unary : Reader Tree := do
  match ← next with
  | some tag =>
    if isUnary tag then
      let operator ← take
      let operand ← sub (.unary literals)
      close .unaryExpression operator.start [
        (leaf .sign operator).withRole .operator, operand.withRole .operand]
    else
      let base ← operand sub
      suffixes sub literals (← left) base
  | none => failure

end Assay.Syntax.Grammar
