/-
Definitions that a prompt can quote, and the closure that collects them.
-/
import Assay.Identity
import Assay.Catalog

namespace Assay

/-- A function or a method. -/
structure FunctionDefinition where
  id : QualifiedName
  name : String
  package : PackageRef
  file : Option String
  receiver : Option Receiver
  /-- The declaration without its body. -/
  signature : String
  /-- The whole declaration; missing when an interface hides it. -/
  body : Option String
deriving DecidableEq

/-- A type. -/
structure TypeDefinition where
  id : QualifiedName
  name : String
  package : PackageRef
  file : String
  body : String
deriving DecidableEq

/-- A definition. -/
inductive Definition where
  | function (definition : FunctionDefinition)
  | type (definition : TypeDefinition)
deriving DecidableEq

namespace Definition

/-- The definition's qualified name. -/
def id : Definition → QualifiedName
  | function definition => definition.id
  | type definition => definition.id

/-- The package that declares it. -/
def package : Definition → PackageRef
  | function definition => definition.package
  | type definition => definition.package

/-- The text a prompt shows, when there is one. -/
def body : Definition → Option String
  | function definition => definition.body
  | type definition => some definition.body

end Definition

/-- Definitions by their qualified names. -/
abbrev UsageClosure := Catalog Definition

namespace UsageClosure

/-- Adds a definition under its own name, in place of an earlier one. -/
def add (uses : UsageClosure) (definition : Definition) : UsageClosure :=
  uses.insert definition.id.text definition

/-- The definitions of each package, by the package's short name. Both the
names and the definitions of one name come in order. -/
def byPackage (uses : UsageClosure) : Catalog (List Definition) :=
  uses.values.foldl (fun groups definition =>
    let name := definition.package.name
    groups.insert name ((groups.find? name).getD [] ++ [definition])) Catalog.empty

end UsageClosure

end Assay
