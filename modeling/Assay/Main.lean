/-
The command line. Everything the program decides is decided by `Program.run`;
here the files of a module are read into a disk, and the test file that a run
leaves is written back.

There is no network and no way to start programs from here, so a request never
gets through and the machine runs only what the shell can run by itself.
-/
import Assay.Program
import Assay.Shell.Run

namespace Assay.Main

/-- The variables that a run may look at. -/
def knownVariables : List String :=
  ["HOME", "XDG_CONFIG_HOME", Config.modelVariable, Service.Provider.keyVariable .openAI,
    Service.Provider.keyVariable .anthropic]

/-- The environment, as far as a run looks at it. -/
def readEnvironment : IO Environment := do
  let values ← knownVariables.mapM fun name => return (name, ← IO.getEnv name)
  return fun name => (values.find? (·.1 == name)).bind (·.2)

/-- Puts a file on a disk if it can be read. -/
def readFile (disk : Disk) (path : String) : IO Disk := do
  match ← (IO.FS.readBinFile path).toBaseIO with
  | .ok bytes => return disk.plant (Path.names path) (.file (Content.ofBytes bytes.toList))
  | .error _ => return disk

/-- A run looks at a file of this path. -/
def isWanted (path : String) : Bool :=
  Path.fileName? path == some "go.mod" || path.endsWith ".go"

/-- Puts what is below a directory on a disk. Links are not followed. -/
partial def readTree (disk : Disk) (path : String) : IO Disk := do
  match ← (IO.FS.realPath path).toBaseIO with
  | .error _ => return disk
  | .ok full =>
    if full.toString != path then return disk
    match ← full.readDir.toBaseIO with
    | .error _ => if isWanted path then readFile disk path else return disk
    | .ok entries =>
      let mut disk := disk.plant (Path.names path) .directory
      for entry in entries do
        disk ← readTree disk (Path.push path entry.fileName)
      return disk

/-- Writes the files that differ between two disks. -/
def writeChanges (before after : Disk) : IO Unit := do
  for (location, entry) in after.entries do
    if let .file content := entry then
      let kept := match before.entry? location with
        | some (.file old) => old.bytes == content.bytes
        | _ => false
      unless kept do
        IO.FS.writeBinFile (Disk.pathOf location) (ByteArray.mk content.bytes.toArray)

/-- The directory of the module that words name. -/
def repositoryOf (words : List String) : Option String :=
  (Arguments.ofWords words).toOption.bind (·.repository)

end Assay.Main

open Assay in
/-- Runs the program on the words of its command line. -/
def main (words : List String) : IO UInt32 := do
  let environment ← Main.readEnvironment
  let directory := (← IO.currentDir).toString
  let start := Disk.empty.plant (Path.names directory) .directory
  let disk ← Main.readFile start (Program.defaultsFile environment)
  let disk ← match Main.repositoryOf words with
    | some repository =>
      match ← (IO.FS.realPath (Path.push directory repository)).toBaseIO with
      | .ok full => Main.readTree disk full.toString
      | .error _ => pure disk
    | none => pure disk
  let chance ← IO.rand 0 (Nat.pow 2 64 - 1)
  let (ending, world) := Program.run ⟨fun _ world => (none, world), Shell.machine, directory⟩ words
    environment chance.toUInt64 (⟨disk, false, ()⟩ : Repair.World Unit)
  Main.writeChanges disk world.disk
  IO.print ending.output
  IO.eprint ending.errors
  return ending.code.toUInt32
