/-
Types, with the lists that occur in them: parameters, type parameters and type
arguments, the fields of a struct and the elements of an interface.
-/
import Assay.Syntax.Grammar.Goal

namespace Assay.Syntax.Grammar

open Reader

variable (sub : Descent)

/-- A type in some part of its parent. -/
def typeAs (role : Role) : Reader Tree := do return (← sub .type).withRole role

-- ============================================================ type names

/-- A type, or several with bars between them: the element of an interface, and
a type argument or a constraint. -/
def typeElem (kind : Kind) : Reader Tree := node kind do
  let first ← sub .type
  let more ← many (do sign .pipe; sub .type)
  return first :: more

/-- `[A, B]` after the name of a generic type or function. -/
def typeArguments : Reader Tree := node .typeArguments do
  sign .leftBracket
  let items ← commaSeparated (typeElem sub .typeElem)
  let _ ← accept .comma
  sign .rightBracket
  return items

/-- A type's name, with the package it comes from when one is named. -/
def plainTypeName : Reader Tree := do
  let start ← here
  let first ← takeIf isName
  match ← next, ← ahead 1 with
  | some (.sign .dot), some tag =>
    if isName tag then
      sign .dot
      let second ← take
      close .qualifiedType start [
        (leaf .packageIdentifier first).withRole .package,
        (leaf .typeIdentifier second).withRole .name]
    else return leaf .typeIdentifier first
  | _, _ => return leaf .typeIdentifier first

/-- A type's name with its type arguments, if it has any. -/
def typeName : Reader Tree := do
  let start ← here
  let base ← plainTypeName
  if ← seesSign .leftBracket then
    match ← optional? (typeArguments sub) with
    | none => return base
    | some arguments =>
      close .genericType start [base.withRole .type, arguments.withRole .typeArguments]
  else return base

-- ============================================================ parameters

/-- An entry of a parameter list. A bare word may turn out to be a name that
shares the type of an entry further on, or a type without a name. -/
inductive Parameter where
  | bare (word : Tree)
  | named (declaration : Tree)
  | other (declaration : Tree)

/-- A declaration for a bare word that is a type after all. -/
def declarationOfType (word : Tree) : Tree :=
  .node ⟨.parameterDeclaration, none, word.start, word.stop⟩
    [(word.withKind .typeIdentifier).withRole .type]

/-- Puts names in front of a declaration's own. -/
def withNames (names : List Tree) : Tree → Tree
  | .node label children =>
    .node { label with start := (names.head?.map (·.start)).getD label.start } (names ++ children)

/-- The declarations of a list: bare words join the next entry when that one is
named, and stand for types otherwise. `words` are the bare words just passed. -/
def declarations (words : List Tree) : List Parameter → List Tree
  | [] => words.map declarationOfType
  | .bare word :: rest => declarations (words ++ [word]) rest
  | .named declaration :: rest =>
    withNames (words.map (·.withRole .name)) declaration :: declarations [] rest
  | .other declaration :: rest =>
    words.map declarationOfType ++ declaration :: declarations [] rest

/-- A name and its type. -/
def namedParameter : Reader Parameter := do
  let declaration ← node .parameterDeclaration do
    let word ← name .identifier
    let type ← typeAs sub .type
    return [word.withRole .name, type]
  return .named declaration

/-- A type without a name. -/
def typeParameterOnly : Reader Parameter := do
  let declaration ← node .parameterDeclaration do return [← typeAs sub .type]
  return .other declaration

/-- The parameter that takes all remaining arguments. -/
def variadicParameter : Reader Parameter := do
  let declaration ← node .variadicParameterDeclaration do
    let word ← if ← seesName then (fun word => [word.withRole .name]) <$> name .identifier
      else pure []
    sign .ellipsis
    let type ← typeAs sub .type
    return word ++ [type]
  return .other declaration

/-- One entry of a parameter list. After a name, a bracket opens either the
array type of the parameter or the type arguments of an unnamed one. -/
def parameter : Reader Parameter := do
  match ← next with
  | some (.sign .ellipsis) => variadicParameter sub
  | some tag =>
    if isName tag then
      match ← ahead 1 with
      | some (.sign .comma) | some (.sign .rightParen) => return .bare (← name .identifier)
      | some (.sign .dot) => typeParameterOnly sub
      | some (.sign .ellipsis) => variadicParameter sub
      | some (.sign .leftBracket) => namedParameter sub <|> typeParameterOnly sub
      | _ => namedParameter sub
    else typeParameterOnly sub
  | none => failure

/-- Parameters, results, or the receiver of a method, in parentheses. -/
def parameterList : Reader Tree := node .parameterList do
  sign .leftParen
  let entries ← optional? (commaSeparated (parameter sub))
  if entries.isSome then
    let _ ← accept .comma
  sign .rightParen
  return declarations [] (entries.getD [])

/-- A result without parentheses can begin with the next token. -/
def seesResult : Reader Bool := do
  match ← next with
  | some (.sign .star) | some (.sign .leftBracket) => return true
  | some (.keyword .structKey) | some (.keyword .interfaceKey) | some (.keyword .mapKey)
  | some (.keyword .chanKey) | some (.keyword .funcKey) => return true
  | some (.sign .arrow) => return (← ahead 1) == some (.keyword .chanKey)
  | some tag => return isName tag
  | none => return false

/-- The parameters of a function and its results, if it has any. -/
def signature : Reader (List Tree) := do
  let parameters ← parameterList sub
  let parameters := parameters.withRole .parameters
  if ← seesSign .leftParen then
    let result ← parameterList sub
    return [parameters, result.withRole .result]
  else if ← seesResult then
    return [parameters, ← typeAs sub .result]
  else return [parameters]

/-- `T any` or `K, V comparable` inside a type parameter list. -/
def typeParameterDeclaration : Reader Tree := node .typeParameterDeclaration do
  let names ← commaSeparated (name .identifier)
  let constraint ← typeElem sub .typeConstraint
  return names.map (·.withRole .name) ++ [constraint.withRole .type]

/-- The type parameters of a generic declaration, in brackets. -/
def typeParameterList : Reader Tree := node .typeParameterList do
  sign .leftBracket
  let items ← commaSeparated (typeParameterDeclaration sub)
  let _ ← accept .comma
  sign .rightBracket
  return items

-- ================================================================ fields

/-- A field that has its type for a name. -/
def embeddedField : Reader (List Tree) := do
  let _ ← accept .star
  return [(← typeName sub).withRole .type]

/-- One or more named fields of a type. -/
def namedField : Reader (List Tree) := do
  let names ← commaSeparated (name .fieldIdentifier)
  let type ← typeAs sub .type
  return names.map (·.withRole .name) ++ [type]

/-- A field declaration, with its tag if it has one. After a name, a bracket
opens either the array type of the field or the type arguments of an embedded
type. -/
def fieldDeclaration : Reader Tree := node .fieldDeclaration do
  let parts ← match ← next, ← ahead 1 with
    | some (.sign .star), _ => embeddedField sub
    | some _, some (.sign .dot) => embeddedField sub
    | some _, some (.sign .leftBracket) => namedField sub <|> embeddedField sub
    | some _, some (.sign .semicolon) | some _, some .lineBreak
    | some _, some (.sign .rightBrace) | some _, some .quotedString
    | some _, some .rawString | some _, none => embeddedField sub
    | _, _ => namedField sub
  let tag ← optional? string
  return parts ++ (tag.map (·.withRole .tag)).toList

/-- `struct` and its fields. -/
def structType : Reader Tree := node .structType do
  keyword .structKey
  let fields ← node .fieldDeclarationList do
    sign .leftBrace
    let fields ← terminated (fieldDeclaration sub)
    sign .rightBrace
    return fields
  return [fields]

/-- A method of an interface, or a type whose methods or values it takes in. -/
def interfaceElem : Reader Tree := do
  match ← seesName, ← ahead 1 with
  | true, some (.sign .leftParen) => node .methodElem do
    let word ← name .fieldIdentifier
    return word.withRole .name :: (← signature sub)
  | _, _ => typeElem sub .typeElem

/-- `interface` and its elements. -/
def interfaceType : Reader Tree := node .interfaceType do
  keyword .interfaceKey
  sign .leftBrace
  let elements ← terminated (interfaceElem sub)
  sign .rightBrace
  return elements

-- ================================================================= types

/-- What a bracket opens where a type is wanted: a slice or an array. -/
def bracketType : Reader Tree := do
  let start ← here
  sign .leftBracket
  if ← accept .rightBracket then
    let element ← typeAs sub .element
    close .sliceType start [element]
  else if ← accept .ellipsis then
    sign .rightBracket
    let element ← typeAs sub .element
    close .implicitLengthArrayType start [element]
  else
    let length ← sub (.expression true)
    sign .rightBracket
    let element ← typeAs sub .element
    close .arrayType start [length.withRole .length, element]

/-- `map` with its key and value types. -/
def mapType : Reader Tree := node .mapType do
  keyword .mapKey
  sign .leftBracket
  let key ← typeAs sub .key
  sign .rightBracket
  return [key, ← typeAs sub .value]

/-- A channel, with or without a direction. -/
def channelType : Reader Tree := node .channelType do
  if ← accept .arrow then
    keyword .chanKey
  else
    keyword .chanKey
    let _ ← accept .arrow
  return [← typeAs sub .value]

/-- Any type. -/
def type : Reader Tree := do
  match ← next with
  | some (.sign .leftParen) => node .parenthesizedType do
    sign .leftParen
    let inner ← sub .type
    sign .rightParen
    return [inner]
  | some (.sign .star) => node .pointerType do
    sign .star
    return [← sub .type]
  | some (.sign .tilde) => node .negatedType do
    sign .tilde
    return [← sub .type]
  | some (.sign .leftBracket) => bracketType sub
  | some (.sign .arrow) | some (.keyword .chanKey) => channelType sub
  | some (.keyword .structKey) => structType sub
  | some (.keyword .interfaceKey) => interfaceType sub
  | some (.keyword .mapKey) => mapType sub
  | some (.keyword .funcKey) => node .functionType do
    keyword .funcKey
    signature sub
  | _ => typeName sub

end Assay.Syntax.Grammar
