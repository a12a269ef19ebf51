/-
A package without its test files, and a module of such packages. A lookup asks
the files without tests only, so it finds in the bare package what it finds in
the package itself; and which package a path or an import leads to is settled by
directories and names, which the bare packages keep.
-/
import Assay.Source.Module

namespace Assay.Source

open Assay.Syntax

variable (package : Package) (module : Module) (file : File) (name : String)

-- ============================================================ test paths

/-- The path has the ending of test files. -/
def isTestPath (path : String) : Bool :=
  match Path.fileName? path with
  | some name => Text.endsWith File.testEnding name.toList
  | none => false

theorem isTest_eq : file.isTest = isTestPath file.path := rfl

theorem isTestPath_congr {path other : String} (hsame : Path.same path other = true) :
    isTestPath path = isTestPath other := by
  unfold isTestPath Path.fileName?
  rw [eq_of_beq hsame]

-- ============================================================== packages

/-- The package without test files. -/
def Package.bare : Package := { package with files := package.sourceFiles }

namespace Package

@[simp]
theorem id_bare : package.bare.id = package.id := rfl

@[simp]
theorem name_bare : package.bare.name = package.name := rfl

@[simp]
theorem directory_bare : package.bare.directory = package.directory := rfl

@[simp]
theorem reference_bare : package.bare.reference = package.reference := rfl

@[simp]
theorem sourceFiles_bare : package.bare.sourceFiles = package.sourceFiles := by
  show List.filter _ (List.filter _ package.files) = List.filter _ package.files
  rw [List.filter_filter]
  simp only [Bool.and_self]

@[simp]
theorem topLevel_bare : package.bare.topLevel = package.topLevel := by
  rw [topLevel, sourceFiles_bare, topLevel]

@[simp]
theorem findType?_bare : package.bare.findType? name = package.findType? name := by
  rw [findType?, topLevel_bare, findType?]

@[simp]
theorem findFunction?_bare : package.bare.findFunction? name = package.findFunction? name := by
  rw [findFunction?, topLevel_bare, findFunction?]

@[simp]
theorem findMethod?_bare (typeName : String) :
    package.bare.findMethod? typeName name = package.findMethod? typeName name := by
  rw [findMethod?, topLevel_bare, findMethod?]

@[simp]
theorem findValue?_bare : package.bare.findValue? name = package.findValue? name := by
  rw [findValue?, topLevel_bare, findValue?]

@[simp]
theorem declaresType_bare : package.bare.declaresType name = package.declaresType name := by
  rw [declaresType, findType?_bare, declaresType]

/-- The file at a path that is no test's is found among the source files. -/
theorem file?_bare {path : String} (hpath : isTestPath path = false) :
    package.bare.file? path = package.file? path := by
  show List.find? _ (List.filter _ package.files) = List.find? _ package.files
  rw [List.find?_filter]
  congr 1
  funext file
  cases hsame : Path.same file.path path with
  | false => simp
  | true => simp [isTest_eq, isTestPath_congr hsame, hpath]

end Package

-- =============================================================== modules

/-- The module without test files. -/
def Module.bare : Module where
  root := module.root
  path := module.path
  packages := ⟨module.packages.entries.map fun entry => (entry.1, entry.2.bare)⟩
  disk := Disk.empty

namespace Module

@[simp]
theorem package?_bare (id : String) :
    module.bare.package? id = (module.package? id).map Package.bare := by
  unfold package? Catalog.find?
  rw [bare, List.find?_map, Option.map_map, Option.map_map]
  rfl

@[simp]
theorem allPackages_bare : module.bare.allPackages = module.allPackages.map Package.bare := by
  unfold allPackages Catalog.values
  rw [bare, List.map_map, List.map_map]
  rfl

@[simp]
theorem packagesIn_bare (directory : String) :
    module.bare.packagesIn directory = (module.packagesIn directory).map Package.bare := by
  rw [packagesIn, allPackages_bare, List.filter_map, packagesIn]
  rfl

@[simp]
theorem packageOf?_bare :
    module.bare.packageOf? file = (module.packageOf? file).map Package.bare := by
  unfold packageOf?
  cases Path.parent? file.path with
  | none => rfl
  | some directory =>
      show (module.bare.packagesIn directory).head? = (module.packagesIn directory).head?.map _
      rw [packagesIn_bare, List.head?_map]

@[simp]
theorem nameOf_bare (imported : Import) : module.bare.nameOf imported = module.nameOf imported := by
  unfold nameOf
  rw [package?_bare]
  cases imported.called <;> cases module.package? imported.path <;> rfl

@[simp]
theorem imported?_bare :
    module.bare.imported? file name = (module.imported? file name).map Package.bare := by
  unfold imported?
  simp only [nameOf_bare, package?_bare]
  induction file.imports with
  | nil => rfl
  | cons imported imports ih =>
      rw [List.findSome?_cons, List.findSome?_cons, ih]
      by_cases hname : (module.nameOf imported == name) = true
      · rw [if_pos hname, if_pos hname]
        cases module.package? imported.path <;> rfl
      · rw [if_neg hname, if_neg hname]

@[simp]
theorem isImportName_bare : module.bare.isImportName file name = module.isImportName file name := by
  simp only [isImportName, nameOf_bare]

/-- A file that holds no tests is loaded in the bare module too. -/
theorem fileAt?_bare {path : String} (hpath : isTestPath (module.absolute path) = false) :
    (module.fileAt? path).map (fun found => (found.1.bare, found.2))
      = (Path.parent? (module.absolute path)).bind fun directory =>
        (module.bare.packagesIn directory).findSome? fun package =>
          (package.file? (module.absolute path)).map fun file => (package, file) := by
  unfold fileAt?
  dsimp only [Option.bind_eq_bind]
  cases Path.parent? (module.absolute path) with
  | none => rfl
  | some directory =>
      dsimp only [Option.bind_some]
      rw [packagesIn_bare, List.findSome?_map, List.map_findSome?]
      congr 1
      funext package
      simp only [Function.comp_apply, Package.file?_bare _ hpath, Option.map_map]
      rfl

end Module

end Assay.Source
