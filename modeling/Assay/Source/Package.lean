/-
Packages, and the declarations a package can be asked for. Only the files that
hold no tests are searched, as the package that importers see has no others.
-/
import Assay.Identity
import Assay.Source.File

namespace Assay.Source

open Assay.Syntax

/-- The files of one directory. -/
structure Package where
  id : String
  name : String
  directory : String
  files : List File

/-- A specification of variables or constants that declares a name, and the
place of that name in it. -/
structure ValueSpec where
  declaration : Declaration
  index : Nat

-- ============================================================= receivers

/-- The type a method is declared on. The receiver is the first parameter that
takes a single argument; a pointer to it and type arguments are looked
through. -/
def receiver? (method : Declaration) : Option Receiver := do
  let parameters ← method.part? .receiver
  let first ← parameters.namedChildren.find? (·.kind == .parameterDeclaration)
  let type ← first.part? .type
  let (base, kind) ←
    if type.kind = .pointerType then (·, ReceiverKind.pointer) <$> type.firstNamed?
    else some (type, ReceiverKind.value)
  let named ← if base.kind = .genericType then base.part? .type else some base
  return ⟨method.file.text named, kind⟩

namespace Package

-- =============================================================== lookups

/-- How other packages refer to this one. -/
def reference (package : Package) : PackageRef := ⟨package.id, package.name⟩

/-- The files without tests. -/
def sourceFiles (package : Package) : List File := package.files.filter (!·.isTest)

/-- The files with tests. -/
def testFiles (package : Package) : List File := package.files.filter (·.isTest)

/-- The file at a path. -/
def file? (package : Package) (path : String) : Option File :=
  package.files.find? fun file => Path.same file.path path

/-- The top level of every source file. -/
def topLevel (package : Package) : List Declaration :=
  package.sourceFiles.flatMap fun file => file.topLevel.map (⟨file, ·⟩)

/-- The specification of a type. -/
def findType? (package : Package) (name : String) : Option Declaration :=
  ((package.topLevel.filter (·.node.kind == .typeDeclaration)).flatMap fun declaration =>
      declaration.node.namedChildren.map fun spec => ⟨declaration.file, spec⟩).find? fun spec =>
    (spec.node.kind == .typeSpec || spec.node.kind == .typeAlias) && spec.isNamed name

/-- A function without a receiver. -/
def findFunction? (package : Package) (name : String) : Option Declaration :=
  package.topLevel.find? fun declaration =>
    declaration.node.kind == .functionDeclaration && declaration.isNamed name

/-- A method of a type, on its values or on pointers to them. -/
def findMethod? (package : Package) (typeName name : String) :
    Option (Declaration × Receiver) :=
  (package.topLevel.filter fun declaration =>
      declaration.node.kind == .methodDeclaration && declaration.isNamed name).findSome?
    fun declaration =>
      match receiver? declaration with
      | some receiver => if receiver.typeName == typeName then some (declaration, receiver) else none
      | none => none

/-- The first specification below a declaration that names a value. -/
def valueIn? (declaration : Declaration) (name : String) : Option ValueSpec :=
  (declaration.node.preorder.filter fun node =>
      node.kind == .varSpec || node.kind == .constSpec).findSome? fun spec =>
    ((spec.parts .name).findIdx? fun word => declaration.file.text word == name).map fun index =>
      ⟨⟨declaration.file, spec⟩, index⟩

/-- A variable or a constant. -/
def findValue? (package : Package) (name : String) : Option ValueSpec :=
  (package.topLevel.filter fun declaration =>
      declaration.node.kind == .varDeclaration || declaration.node.kind == .constDeclaration)
    |>.findSome? (valueIn? · name)

/-- The package declares this type. -/
def declaresType (package : Package) (name : String) : Bool := (package.findType? name).isSome

end Package

-- ======================================================= inside of types

/-- The node of an interface's elements, when the type is an interface. -/
def interfaceNode? (spec : Declaration) : Option Tree :=
  (spec.part? .type).filter (·.kind == .interfaceType)

/-- The type is an interface. -/
def isInterface (spec : Declaration) : Bool := (interfaceNode? spec).isSome

/-- A method that an interface lists itself. -/
def interfaceMethod? (spec : Declaration) (name : String) : Option Declaration := do
  let interface ← interfaceNode? spec
  (interface.namedChildren.filter (·.kind == .methodElem)).map (⟨spec.file, ·⟩)
    |>.find? (·.isNamed name)

/-- The field declarations of a struct. -/
def fieldDeclarations (spec : Declaration) : List Tree :=
  match (spec.part? .type).filter (·.kind == .structType) with
  | none => []
  | some struct =>
    ((struct.namedChildren.filter (·.kind == .fieldDeclarationList)).flatMap Tree.namedChildren)
      |>.filter (·.kind == .fieldDeclaration)

/-- The types of the fields that have no name of their own; for a pointer, the
type it points to. -/
def embeddedFields (spec : Declaration) : List Tree :=
  ((fieldDeclarations spec).filter fun field => (field.parts .name).isEmpty).filterMap
    (·.part? .type)

/-- The interfaces that an interface takes in. Unions and approximations are no
interfaces. -/
def embeddedInterfaces (spec : Declaration) : List Tree :=
  match interfaceNode? spec with
  | none => []
  | some interface =>
    (interface.namedChildren.filterMap fun element =>
        match element.kind, element.namedChildren with
        | .typeElem, [only] => some only
        | _, _ => none).filter fun type =>
      type.kind == .typeIdentifier || type.kind == .qualifiedType || type.kind == .genericType

/-- The word that names an embedded field: its type without package and
arguments. -/
def embeddedName? (type : Tree) : Option Tree :=
  match type.kind with
  | .qualifiedType => type.part? .name
  | .genericType => type.part? .type
  | _ => some type

/-- The type of a field that a struct declares itself, by name or by
embedding. -/
def structField? (spec : Declaration) (name : String) : Option Tree :=
  (fieldDeclarations spec).findSome? fun field => do
    let type ← field.part? .type
    match field.parts .name with
    | [] =>
      let word ← embeddedName? type
      if spec.file.text word == name then some type else none
    | words => if words.any (spec.file.text · == name) then some type else none

/-- The types of a function's results, one for each result. -/
def resultTypes (function : Declaration) : List Tree :=
  match function.part? .result with
  | none => []
  | some result =>
    if result.kind = .parameterList then
      result.namedChildren.flatMap fun parameter =>
        match parameter.part? .type with
        | none => []
        | some type => List.replicate (max 1 (parameter.parts .name).length) type
    else [result]

end Assay.Source
