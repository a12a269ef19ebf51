/-
What declarations are called across a whole module: the package they belong
to, the type a method is declared on, and the qualified name that ties these to
the declaration's own name.
-/

namespace Assay

/-- A package, by its import path and by the name in its package clause. -/
structure PackageRef where
  id : String
  name : String
deriving DecidableEq

/-- How a method is reached. -/
inductive ReceiverKind where
  | value
  | pointer
  /-- Through an interface, so that the implementation is unknown. -/
  | interface
deriving DecidableEq

/-- The type that a method is declared on. -/
structure Receiver where
  typeName : String
  kind : ReceiverKind
deriving DecidableEq

/-- How the receiver is spelled in a qualified name. Pointers are marked, so
methods on `T` and on `*T` are told apart. -/
def Receiver.qualifier (receiver : Receiver) : String :=
  match receiver.kind with
  | .pointer => "(*" ++ receiver.typeName ++ ")"
  | .value | .interface => receiver.typeName

/-- The name of a declaration, unique in its module. -/
structure QualifiedName where
  text : String
deriving DecidableEq

/-- The name of a type. -/
def QualifiedName.ofType (package name : String) : QualifiedName := ⟨package ++ "." ++ name⟩

/-- The name of a function, or of a method when there is a receiver. -/
def QualifiedName.ofFunction (package : String) (receiver : Option Receiver) (name : String) :
    QualifiedName :=
  match receiver with
  | none => ⟨package ++ "." ++ name⟩
  | some receiver => ⟨package ++ "." ++ receiver.qualifier ++ "." ++ name⟩

end Assay
