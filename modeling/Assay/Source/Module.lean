/-
A module: its packages, and how paths and the names of imports lead to them.

A module keeps the disk it was loaded from, since the paths it is asked about
are made canonical there. Nothing below writes to it.
-/
import Assay.Catalog
import Assay.Disk
import Assay.Source.Package

namespace Assay.Source

/-- The packages below a root directory, by their import paths. -/
structure Module where
  root : String
  path : String
  packages : Catalog Package
  disk : Disk

namespace Module

/-- All packages, by import path. -/
def allPackages (module : Module) : List Package := module.packages.values

/-- The package with an import path. -/
def package? (module : Module) (id : String) : Option Package := module.packages.find? id

-- ================================================================= paths

/-- A path seen from the root, as the disk spells it when something is there. -/
def absolute (module : Module) (path : String) : String :=
  let joined := Path.push module.root path
  match module.disk.locate? joined with
  | some location => Disk.pathOf location
  | none => joined

/-- A path below the root, without the root. -/
def relative? (module : Module) (path : String) : Option String := Path.after? module.root path

/-- The packages of a directory; there is at most one. -/
def packagesIn (module : Module) (directory : String) : List Package :=
  module.allPackages.filter fun package => Path.same package.directory directory

/-- The loaded file at a path, and its package. -/
def fileAt? (module : Module) (path : String) : Option (Package × File) := do
  let path := module.absolute path
  let directory ← Path.parent? path
  (module.packagesIn directory).findSome? fun package =>
    (package.file? path).map fun file => (package, file)

/-- The package that a loaded file belongs to. -/
def packageOf? (module : Module) (file : File) : Option Package := do
  let directory ← Path.parent? file.path
  (module.packagesIn directory).head?

-- =============================================================== imports

/-- What a file calls an import: the name it gives, else the name of the loaded
package, else a guess from the path. -/
def nameOf (module : Module) (imported : Import) : String :=
  match imported.called, module.package? imported.path with
  | some name, _ => name
  | none, some package => package.name
  | none, none => imported.defaultName

/-- The loaded package that a name stands for in a file. -/
def imported? (module : Module) (file : File) (name : String) : Option Package :=
  file.imports.findSome? fun imported =>
    if module.nameOf imported == name then module.package? imported.path else none

/-- The name stands for an import of the file, loaded or not. -/
def isImportName (module : Module) (file : File) (name : String) : Bool :=
  file.imports.any fun imported => module.nameOf imported == name

end Module

end Assay.Source
