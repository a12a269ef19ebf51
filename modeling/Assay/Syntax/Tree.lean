/-
Concrete syntax trees of Go source. A node says what it is (`Kind`), which part
of its parent it plays (`Role`) and which stretch of the source it covers; its
text is that stretch. The parts a reader of declarations asks for are found by
role, so nothing here depends on the order in which the grammar happens to list
them.

Comments are nodes too: one sits among the children of the innermost node that
surrounds it, between the two children it separates.
-/

namespace Assay.Syntax

/-- What a node is. -/
inductive Kind where
  | sourceFile | packageClause | importDeclaration | importSpecList | importSpec
  | dot | blankIdentifier | packageIdentifier
  | constDeclaration | constSpec | varDeclaration | varSpecList | varSpec
  | typeDeclaration | typeSpec | typeAlias
  | functionDeclaration | methodDeclaration
  | typeParameterList | typeParameterDeclaration | typeConstraint
  | parameterList | parameterDeclaration | variadicParameterDeclaration
  | parenthesizedType | typeIdentifier | fieldIdentifier | genericType | typeArguments
  | qualifiedType | pointerType | structType | interfaceType | arrayType
  | implicitLengthArrayType | sliceType | mapType | channelType | functionType | negatedType
  | fieldDeclarationList | fieldDeclaration | methodElem | typeElem
  | block | emptyStatement | expressionStatement | sendStatement | receiveStatement
  | incStatement | decStatement | assignmentStatement | shortVarDeclaration
  | labeledStatement | labelName | fallthroughStatement | breakStatement | continueStatement
  | gotoStatement | returnStatement | goStatement | deferStatement
  | ifStatement | forStatement | forClause | rangeClause
  | expressionSwitchStatement | expressionCase | defaultCase
  | typeSwitchStatement | typeCase | selectStatement | communicationCase
  | expressionList | identifier | unaryExpression | binaryExpression
  | parenthesizedExpression | callExpression | argumentList | variadicArgument
  | selectorExpression | indexExpression | sliceExpression | typeAssertionExpression
  | typeConversionExpression | typeInstantiationExpression
  | compositeLiteral | literalValue | literalElement | keyedElement | funcLiteral
  | intLiteral | floatLiteral | imaginaryLiteral | runeLiteral
  | rawStringLiteral | interpretedStringLiteral
  | nilLiteral | trueLiteral | falseLiteral | iotaLiteral
  | comment
  /-- A sign kept because a reader asks for it: an operator, a define sign, a
  comma between declared names. -/
  | sign
deriving DecidableEq

/-- Signs carry no name of their own; everything else is a named node. -/
def Kind.isNamed (kind : Kind) : Bool := kind != .sign

/-- Which part of its parent a node plays. -/
inductive Role where
  | name | type | value | left | right | operand | operator | field | function
  | arguments | typeArguments | body | receiver | parameters | typeParameters | result
  | package | path | element | key | guard | label | initializer | condition | update
  | consequence | alternative | communication | channel | index | tag | length
deriving DecidableEq

/-- What is known of a node apart from its children. Offsets count characters
from the start of the source. -/
structure Label where
  kind : Kind
  role : Option Role
  start : Nat
  stop : Nat
deriving DecidableEq

/-- A syntax tree. -/
inductive Tree where
  | node (label : Label) (children : List Tree)

namespace Tree

/-- The label of the root. -/
def label : Tree → Label
  | node label _ => label

/-- The children of the root, comments and signs included. -/
def children : Tree → List Tree
  | node _ children => children

/-- What the root is. -/
def kind (tree : Tree) : Kind := tree.label.kind

/-- Offset of the first character. -/
def start (tree : Tree) : Nat := tree.label.start

/-- Offset just past the last character. -/
def stop (tree : Tree) : Nat := tree.label.stop

/-- The same tree in another part of its parent. -/
def withRole (role : Role) : Tree → Tree
  | node label children => node { label with role := some role } children

/-- The same tree taken for another kind of node. -/
def withKind (kind : Kind) : Tree → Tree
  | node label children => node { label with kind := kind } children

/-- The stretch of `source` that the tree covers. -/
def chars (source : List Char) (tree : Tree) : List Char :=
  (source.drop tree.start).take (tree.stop - tree.start)

/-- The stretch of `source` that the tree covers, as a string. -/
def text (source : List Char) (tree : Tree) : String := String.ofList (tree.chars source)

-- ========================================================= the children

/-- The children that are named nodes. -/
def namedChildren (tree : Tree) : List Tree := tree.children.filter (·.kind.isNamed)

/-- The first child that is a named node. -/
def firstNamed? (tree : Tree) : Option Tree := tree.namedChildren.head?

/-- The children that play a role. -/
def parts (tree : Tree) (role : Role) : List Tree :=
  tree.children.filter (·.label.role == some role)

/-- The first child that plays a role. -/
def part? (tree : Tree) (role : Role) : Option Tree :=
  tree.children.find? (·.label.role == some role)

-- =========================================================== all nodes

mutual

/-- The tree and everything below it, each node before its children. -/
def preorder : Tree → List Tree
  | node label children => node label children :: preorderAll children

/-- The nodes of several trees, one tree after the other. -/
def preorderAll : List Tree → List Tree
  | [] => []
  | tree :: trees => preorder tree ++ preorderAll trees

end

/-- A node together with the labels of the nodes above it, the nearest first. -/
structure Visit where
  tree : Tree
  above : List Label

mutual

/-- `preorder`, where every node comes with the labels above it. -/
def visits (above : List Label) : Tree → List Visit
  | node label children => ⟨node label children, above⟩ :: visitsAll (label :: above) children

/-- The visits of several trees under the same labels. -/
def visitsAll (above : List Label) : List Tree → List Visit
  | [] => []
  | tree :: trees => visits above tree ++ visitsAll above trees

end

end Tree

end Assay.Syntax
