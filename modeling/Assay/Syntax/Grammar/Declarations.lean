/-
Declarations of constants, variables and types, which a function body may hold
as well as a file, and those only a file holds: the package clause, imports,
functions and methods.
-/
import Assay.Syntax.Grammar.Expressions

namespace Assay.Syntax.Grammar

open Reader

variable (sub : Descent)

-- ======================================================== any block's

/-- What a list of specifications in parentheses holds. -/
def specifications (item : Reader Tree) : Reader (List Tree) := do
  sign .leftParen
  let items ← terminated item
  sign .rightParen
  return items

/-- The names of a constant specification. The commas between them count as
names too, so a name's place in the list is twice its number. -/
def constantNames : Reader (List Tree) := do
  let first ← name .identifier
  let more ← many do
    let comma ← expect (.sign .comma)
    let word ← name .identifier
    return [leaf .sign comma, word]
  return (first :: more.flatten).map (·.withRole .name)

/-- One or more constants; without values they repeat the ones before. -/
def constantSpec : Reader Tree := node .constSpec do
  let names ← constantNames
  let typed? ← optional? do
    let type ← if ← seesSign .assign then pure [] else (fun type => [type]) <$> typeAs sub .type
    sign .assign
    let values ← expressionList sub true
    return type ++ [values.withRole .value]
  return names ++ typed?.getD []

/-- One or more variables, with a type, with values, or with both. -/
def variableSpec : Reader Tree := node .varSpec do
  let names ← commaSeparated (name .identifier)
  let type ← if ← seesSign .assign then pure [] else (fun type => [type]) <$> typeAs sub .type
  let values ← if ← accept .assign then
      (fun values => [values.withRole .value]) <$> expressionList sub true
    else pure []
  return names.map (·.withRole .name) ++ type ++ values

/-- A new type, or another name for one. After the name, a bracket opens an
array type where it can, and type parameters otherwise. -/
def typeSpec : Reader Tree := do
  let start ← here
  let word ← name .typeIdentifier
  let word := word.withRole .name
  let plain : Reader Tree := do
    let type ← typeAs sub .type
    close .typeSpec start [word, type]
  let generic : Reader Tree := do
    let parameters ← typeParameterList sub
    let parameters := parameters.withRole .typeParameters
    let isAlias ← accept .assign
    let type ← typeAs sub .type
    close (if isAlias then .typeAlias else .typeSpec) start [word, parameters, type]
  if ← accept .assign then
    let type ← typeAs sub .type
    close .typeAlias start [word, type]
  else if ← seesSign .leftBracket then plain <|> generic
  else plain

/-- A declaration of constants, variables or types. -/
def declaration : Reader Tree := do
  match ← next with
  | some (.keyword .constKey) => node .constDeclaration do
    keyword .constKey
    if ← seesSign .leftParen then specifications (constantSpec sub)
    else return [← constantSpec sub]
  | some (.keyword .varKey) => node .varDeclaration do
    keyword .varKey
    if ← seesSign .leftParen then
      return [← node .varSpecList (specifications (variableSpec sub))]
    else return [← variableSpec sub]
  | some (.keyword .typeKey) => node .typeDeclaration do
    keyword .typeKey
    if ← seesSign .leftParen then specifications (typeSpec sub)
    else return [← typeSpec sub]
  | _ => failure

-- ======================================================== a file's own

/-- `package` and the package's name. -/
def packageClause : Reader Tree := node .packageClause do
  keyword .packageKey
  return [← name .packageIdentifier]

/-- What an import is called in the file, when the file says so. -/
def importName : Reader (List Tree) := do
  match ← next with
  | some (.sign .dot) => return [(leaf .dot (← take)).withRole .name]
  | some .blank => return [(leaf .blankIdentifier (← take)).withRole .name]
  | some tag =>
    if isName tag then return [(← name .packageIdentifier).withRole .name] else return []
  | none => return []

/-- One import. -/
def importSpec : Reader Tree := node .importSpec do
  let called ← importName
  let path ← string
  return called ++ [path.withRole .path]

/-- `import` with one path or several. -/
def importDeclaration : Reader Tree := node .importDeclaration do
  keyword .importKey
  if ← seesSign .leftParen then return [← node .importSpecList (specifications importSpec)]
  else return [← importSpec]

/-- The body of a function, if it has one. -/
def functionBody : Reader (List Tree) := do
  if ← seesSign .leftBrace then return [(← sub .block).withRole .body] else return []

/-- A function that belongs to no type. -/
def functionDeclaration : Reader Tree := node .functionDeclaration do
  keyword .funcKey
  let word ← name .identifier
  let generic ← if ← seesSign .leftBracket then
      (fun parameters => [parameters.withRole .typeParameters]) <$> typeParameterList sub
    else pure []
  let parts ← signature sub
  return word.withRole .name :: generic ++ parts ++ (← functionBody sub)

/-- A function that belongs to the type of its receiver. -/
def methodDeclaration : Reader Tree := node .methodDeclaration do
  keyword .funcKey
  let receiver ← parameterList sub
  let word ← name .fieldIdentifier
  let parts ← signature sub
  return receiver.withRole .receiver :: word.withRole .name :: parts ++ (← functionBody sub)

/-- A declaration that only a file holds. -/
def fileDeclaration : Reader Tree := do
  match ← next, ← ahead 1 with
  | some (.keyword .packageKey), _ => packageClause
  | some (.keyword .importKey), _ => importDeclaration
  | some (.keyword .funcKey), some (.sign .leftParen) => methodDeclaration sub
  | some (.keyword .funcKey), _ => functionDeclaration sub
  | _, _ => failure

end Assay.Syntax.Grammar
