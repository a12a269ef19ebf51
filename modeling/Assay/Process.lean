/-
Programs that are started, seen from outside: a command in a directory, what it
prints and how it ends. A `Machine` says what running a command does; it may
change the disk.
-/
import Assay.Disk

namespace Assay

/-- A program, its arguments and the directory it starts in. -/
structure Command where
  program : String
  arguments : List String
  directory : String
deriving DecidableEq

/-- What a finished program leaves. A program that was stopped by a signal has
no exit code. -/
structure ProcessOutput where
  success : Bool
  code : Option Int
  stdout : List Char
  stderr : List Char
deriving DecidableEq

/-- Runs a command, or says why it cannot be started. -/
abbrev Machine := Command → Disk → Except Disk.Fault ProcessOutput × Disk

end Assay
