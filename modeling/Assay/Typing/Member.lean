/-
Methods and fields of declared types, own or taken over from embedded ones. The
search goes into depth: what the first embedded type offers, however deep, is
found before anything of the second. Each declaration is entered once, so
types that embed each other in a circle do no harm.
-/
import Assay.Typing.Context

namespace Assay.Typing

open Assay.Syntax Assay.Source

/-- A method of a type. Its receiver is the type that declares it, which may be
one that the type embeds. -/
inductive Method where
  | concrete (package : Package) (declaration : Declaration) (receiver : Receiver)
  | interface (package : Package) (spec declaration : Declaration)

/-- The declaration of a method. -/
def Method.declaration : Method → Declaration
  | concrete _ declaration _ => declaration
  | interface _ _ declaration => declaration

/-- A field: the node of its type, and the context that the node is in. -/
structure Field where
  context : Context
  type : Tree

-- ============================================================ the search

/-- A declared type, whether or not it was reached through a pointer. -/
abbrev TypeKey := String × String

/-- The declaration that a reference leads to. -/
def TypeRef.key (type : TypeRef) : TypeKey := (type.package, type.name)

/-- The names in a package's type declarations. -/
def typeNames (package : Package) : List String :=
  (package.topLevel.filter (·.node.kind == .typeDeclaration)).flatMap fun declaration =>
    (declaration.node.namedChildren.filter fun spec =>
        spec.kind == .typeSpec || spec.kind == .typeAlias).filterMap fun spec =>
      (spec.part? .name).map declaration.file.text

/-- Every type of a module, once. -/
def typeKeys (module : Module) : List TypeKey :=
  (module.allPackages.flatMap fun package =>
    (typeNames package).map fun name => (package.id, name)).eraseDups

/-- The types that nodes of a declaration denote. -/
def resolveAll (module : Module) (spec : Declaration) (nodes : List Tree) : List TypeRef :=
  match Context.ofFile? module spec.file with
  | none => []
  | some context => nodes.filterMap context.resolve?

/-- Looks for something in the pending types and what they embed. `fresh` holds
the types not yet entered, and no more than `entries` of them are. -/
def searchWithin {α : Type} (module : Module)
    (found? : TypeRef → Package → Declaration → Option α) (embedded : Declaration → List Tree) :
    (entries : Nat) → (fresh : List TypeKey) → (pending : List TypeRef) → Option α
  | 0, _, _ => none
  | entries + 1, fresh, pending =>
    match pending.dropWhile (·.key ∉ fresh) with
    | [] => none
    | owner :: pending =>
      match typeSpec? module owner with
      | none => searchWithin module found? embedded entries (fresh.erase owner.key) pending
      | some (package, spec) =>
        match found? owner package spec with
        | some answer => some answer
        | none =>
          searchWithin module found? embedded entries (fresh.erase owner.key)
            (resolveAll module spec (embedded spec) ++ pending)

/-- Looks for something in the pending types and what they embed, entering each
fresh type once at most. -/
def search {α : Type} (module : Module) (found? : TypeRef → Package → Declaration → Option α)
    (embedded : Declaration → List Tree) (fresh : List TypeKey) (pending : List TypeRef) :
    Option α :=
  searchWithin module found? embedded fresh.length fresh pending

-- ======================================================= methods, fields

/-- A method that a type declares itself. -/
def ownMethod? (name : String) (owner : TypeRef) (package : Package) (spec : Declaration) :
    Option Method :=
  if isInterface spec then (interfaceMethod? spec name).map (.interface package spec)
  else (package.findMethod? owner.name name).map fun (declaration, receiver) =>
    .concrete package declaration receiver

/-- The types whose methods a type takes over. -/
def methodSources (spec : Declaration) : List Tree :=
  if isInterface spec then embeddedInterfaces spec else embeddedFields spec

/-- A method of a type. -/
def method? (module : Module) (owner : TypeRef) (name : String) : Option Method :=
  search module (ownMethod? name) methodSources (typeKeys module) [owner]

/-- A field that a struct declares itself. -/
def ownField? (module : Module) (name : String) (_owner : TypeRef) (_package : Package)
    (spec : Declaration) : Option Field := do
  let context ← Context.ofFile? module spec.file
  (⟨context, ·⟩) <$> structField? spec name

/-- A field of a type. -/
def field? (module : Module) (owner : TypeRef) (name : String) : Option Field :=
  search module (ownField? module name) embeddedFields (typeKeys module) [owner]

end Assay.Typing
