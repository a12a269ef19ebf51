/-
Saving a test: the file is read, patched and written, an import fixer may
rewrite it, and the changes are counted against what was there before. The disk
is part of every answer, since a failed fixer leaves the written file behind.
-/
import Assay.Process
import Assay.TestFile.Patch
import Assay.Text.LineDiff

namespace Assay.TestFile

open Text

/-- What puts a file's imports in order: a program that is given the file's path
after its other arguments, or nothing. -/
inductive ImportFixer where
  | command (program : String) (arguments : List String)
  | disabled
deriving DecidableEq

/-- Why a test cannot be saved. -/
inductive SaveError where
  | file (path : String) (fault : Disk.Fault)
  | fixerNotStarted (program : String) (fault : Disk.Fault)
  | fixerFailed (program path : String) (message : List Char)

/-- How a failure to save is reported. -/
def SaveError.message : SaveError → String
  | .file path fault => path ++ ": " ++ fault.message
  | .fixerNotStarted program fault => "starting " ++ program ++ ": " ++ fault.message
  | .fixerFailed program path message =>
    program ++ " failed on " ++ path ++ ": " ++ String.ofList message

/-- What a save did. -/
structure Saved where
  path : String
  created : Bool
  changes : LineChanges
deriving DecidableEq

/-- The text of a file, which is empty while there is no file. -/
def textBefore (disk : Disk) (path : String) : Except SaveError (List Char × Bool) :=
  match disk.readText path with
  | .ok text => .ok (text, false)
  | .error .notFound => .ok ([], true)
  | .error fault => .error (.file path fault)

/-- Runs a fixer on a file. -/
def ImportFixer.run (fixer : ImportFixer) (machine : Machine) (path : String) (disk : Disk) :
    Except SaveError Unit × Disk :=
  match fixer with
  | .disabled => (.ok (), disk)
  | .command program arguments =>
    match machine ⟨program, arguments ++ [path], ""⟩ disk with
    | (.error fault, disk) => (.error (.fixerNotStarted program fault), disk)
    | (.ok output, disk) =>
      if output.success then (.ok (), disk)
      else (.error (.fixerFailed program path (trim output.stderr)), disk)

/-- The text of a file once the fixer is done. -/
def textAfter (fixer : ImportFixer) (disk : Disk) (path : String) (written : List Char) :
    Except SaveError (List Char) :=
  match fixer with
  | .disabled => .ok written
  | .command _ _ => match disk.readText path with
    | .ok text => .ok text
    | .error fault => .error (.file path fault)

/-- Saves a test in a file. -/
def save (machine : Machine) (fixer : ImportFixer) (path package : String)
    (test : GeneratedTest) (disk : Disk) : Except SaveError Saved × Disk :=
  match textBefore disk path with
  | .error error => (.error error, disk)
  | .ok (existing, created) =>
    let updated := patch existing package test
    match disk.write path (.text updated) with
    | .error fault => (.error (.file path fault), disk)
    | .ok disk =>
      match fixer.run machine path disk with
      | (.error error, disk) => (.error error, disk)
      | (.ok (), disk) =>
        match textAfter fixer disk path updated with
        | .error error => (.error error, disk)
        | .ok written => (.ok ⟨path, created, lineChanges existing written⟩, disk)

end Assay.TestFile
