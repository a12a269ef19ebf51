/-
Loading a module from a disk. All files are read before any is judged: the
first that cannot be read ends the loading, and otherwise the faults of all
files are reported together, in the order of the walk.
-/
import Assay.Source.Module
import Assay.Syntax.Fault

namespace Assay.Source

open Assay.Syntax

/-- A fault of a file. -/
structure FileFault where
  path : String
  fault : Fault

/-- Why a module cannot be loaded. -/
inductive LoadError where
  | unreadable (path : String) (fault : Disk.Fault)
  | noModule (root : String)
  | noModulePath (root : String)
  | faulty (faults : List FileFault)

/-- How a load error is reported. -/
def LoadError.message : LoadError → String
  | .unreadable path fault => path ++ ": " ++ fault.message
  | .noModule root => "no go.mod found in " ++ root
  | .noModulePath root => "go.mod in " ++ root ++ " has no module directive"
  | .faulty faults =>
    toString faults.length ++ " source error(s):\n"
      ++ "\n".intercalate (faults.map fun found => found.path ++ ":" ++ found.fault.message)

-- ========================================================== the walk

/-- The name of the file that makes a directory the root of a module. -/
def moduleFileName : String := "go.mod"

/-- Directories that are not part of the module: hidden ones, those set aside
by their names, and the roots of other modules. -/
def isIgnored (disk : Disk) (directory : Location) : Bool :=
  match directory.getLast? with
  | none => false
  | some name =>
    name.startsWith "." || name.startsWith "_" || name == "vendor" || name == "testdata"
      || disk.isFile (Disk.pathOf (directory ++ [moduleFileName]))

/-- No directory between the root and a location is ignored. -/
def isReached (disk : Disk) (root location : Location) : Bool :=
  (List.range location.length).all fun length =>
    decide (length ≤ root.length) || !isIgnored disk (location.take length)

/-- The Go files of a module, each directory's neighbours in the order of their
names. -/
def goFiles (disk : Disk) (root : Location) : List Location :=
  (disk.below root).filter fun location =>
    disk.isFile (Disk.pathOf location)
      && Path.extension? (Disk.pathOf location) == some "go"
      && isReached disk root location

-- ====================================================== the module's path

/-- The path that a module file declares: what follows the word on the first
line that begins with it, without comments and quotes. -/
def modulePath? (source : List Char) : Option String := do
  let lines := (Text.lines source).map fun line =>
    Text.trim (((Text.splitOnce? "//".toList line).map (·.1)).getD line)
  let rest ← lines.findSome? (Text.after? "module".toList)
  let path := Text.strip (· = '\x22') (Text.trim rest)
  if path.isEmpty then none else some (String.ofList path)

/-- The path of the module whose root is a directory. -/
def readModulePath (disk : Disk) (root : String) : Except LoadError String :=
  let path := Path.push root moduleFileName
  match disk.readText path with
  | .error .notFound => .error (.noModule root)
  | .error fault => .error (.unreadable path fault)
  | .ok source => match modulePath? source with
    | none => .error (.noModulePath root)
    | some path => .ok path

-- ============================================================= packages

/-- The text of a file of the walk. -/
def readSource (disk : Disk) (location : Location) :
    Except LoadError (Location × List Char) :=
  match disk.readText (Disk.pathOf location) with
  | .ok source => .ok (location, source)
  | .error fault => .error (.unreadable (Disk.pathOf location) fault)

/-- The faults of a file. -/
def fileFaults (file : Location × List Char) : List FileFault :=
  (faults file.2).map (⟨Disk.pathOf file.1, ·⟩)

/-- A file of the walk with its tree. -/
def parsedFile? (file : Location × List Char) : Option (Location × File) :=
  (parse? file.2).map fun tree => (file.1, File.ofTree (Disk.pathOf file.1) file.2 tree)

/-- The import path of a directory. -/
def packageId (modulePath : String) (root directory : Location) : String :=
  "/".intercalate (modulePath :: directory.drop root.length)

/-- The name of a package: that of its first file without tests, or else of its
first file, less the ending that external tests add. -/
def packageName (files : List File) : String :=
  match (files.find? (!·.isTest)).or files.head? with
  | none => ""
  | some file =>
    match Text.before? "_test".toList file.packageName.toList with
    | some name => String.ofList name
    | none => file.packageName

/-- The package of a directory. -/
def packageAt (modulePath : String) (root directory : Location)
    (files : List (Location × File)) : Package :=
  let own := (files.filter (·.1.dropLast == directory)).map (·.2)
  ⟨packageId modulePath root directory, packageName own, Disk.pathOf directory, own⟩

/-- The module whose root is at a path. -/
def load (disk : Disk) (root : String) : Except LoadError Module := do
  let location ← match disk.locate root with
    | .ok location => pure location
    | .error fault => throw (.unreadable root fault)
  let root := Disk.pathOf location
  let modulePath ← readModulePath disk root
  let sources ← (goFiles disk location).mapM (readSource disk)
  let faults := sources.flatMap fileFaults
  if !faults.isEmpty then throw (.faulty faults)
  let files := sources.filterMap parsedFile?
  let directories := (files.map (·.1.dropLast)).eraseDups
  let packages := directories.map fun directory => packageAt modulePath location directory files
  return ⟨root, modulePath, Catalog.ofList (packages.map fun package => (package.id, package)), disk⟩

end Assay.Source
