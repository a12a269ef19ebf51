/-
A file tree as a value. Every operation the program performs on files is a
function on a `Disk`, and what can go wrong with one is a `Disk.Fault`.

A location is the list of names from the root. A path is looked up as the
system does it: a step through something that is no directory fails even when a
later `..` would leave it again.
-/
import Assay.Path
import Assay.Text.Utf8

namespace Assay

/-- What a file holds. Bytes that encode text are kept as that text. -/
inductive Content where
  | text (chars : List Char)
  | binary (bytes : List UInt8)

namespace Content

/-- The content that some bytes make. -/
def ofBytes (bytes : List UInt8) : Content :=
  match Text.Utf8.decode? bytes with
  | some chars => .text chars
  | none => .binary bytes

/-- The bytes of a content. -/
def bytes : Content → List UInt8
  | .text chars => Text.Utf8.encode chars
  | .binary bytes => bytes

end Content

/-- A file or a directory. -/
inductive Entry where
  | directory
  | file (content : Content)

/-- Names from the root. -/
abbrev Location := List String

/-- A file tree: its entries, each at one location. The root is a directory
without an entry of its own. -/
structure Disk where
  entries : List (Location × Entry)

namespace Disk

/-- Why an operation on a file failed. -/
inductive Fault where
  | notFound
  | notDirectory
  | isDirectory
  | notText
deriving DecidableEq

/-- The system's words for a fault. -/
def Fault.message : Fault → String
  | .notFound => "No such file or directory (os error 2)"
  | .notDirectory => "Not a directory (os error 20)"
  | .isDirectory => "Is a directory (os error 21)"
  | .notText => "stream did not contain valid UTF-8"

-- ============================================================== entries

/-- A disk with nothing on it. -/
def empty : Disk := ⟨[]⟩

/-- What is at a location. -/
def entry? (disk : Disk) (location : Location) : Option Entry :=
  if location.isEmpty then some .directory
  else (disk.entries.find? (·.1 == location)).map (·.2)

/-- Puts an entry at a location, in place of what is there. -/
def put (disk : Disk) (location : Location) (entry : Entry) : Disk :=
  ⟨(location, entry) :: disk.entries.filter (·.1 != location)⟩

/-- Takes the entry at a location away. -/
def remove (disk : Disk) (location : Location) : Disk :=
  ⟨disk.entries.filter (·.1 != location)⟩

/-- The locations above one, the nearest to the root first. -/
def parents (location : Location) : List Location :=
  (List.range location.length).map location.take |>.filter (!·.isEmpty)

/-- Puts an entry at a location and makes the directories above it. -/
def plant (disk : Disk) (location : Location) (entry : Entry) : Disk :=
  let rooted := (parents location).foldl (fun disk parent =>
    if (disk.entry? parent).isSome then disk else disk.put parent .directory) disk
  rooted.put location entry

/-- The path of a location. -/
def pathOf (location : Location) : String := "/" ++ "/".intercalate location

/-- `a` comes before `b` name by name. -/
def precedes : (a b : Location) → Bool
  | [], _ => true
  | _ :: _, [] => false
  | x :: a, y :: b => if x == y then precedes a b else decide (x < y)

/-- The locations below one, each directory before what is in it and neighbours
by name. -/
def below (disk : Disk) (location : Location) : List Location :=
  ((disk.entries.map (·.1)).filter fun other =>
    decide (location.length < other.length) && other.take location.length == location)
    |>.mergeSort precedes

-- =============================================================== lookup

/-- Follows the parts of a path from a location. -/
def follow (disk : Disk) : Location → List Path.Part → Except Fault Location
  | location, [] => .ok location
  | location, part :: parts =>
    match disk.entry? location with
    | none => .error .notFound
    | some (.file _) => .error .notDirectory
    | some .directory =>
      match part with
      | .root => disk.follow [] parts
      | .here => disk.follow location parts
      | .up => disk.follow location.dropLast parts
      | .name name => disk.follow (location ++ [name]) parts

/-- The path ends in a slash, or in a slash and a dot, and so must lead to a
directory. -/
def wantsDirectory (path : String) : Bool :=
  let text := path.toList
  Text.endsWith ['/'] text || Text.endsWith ['/', '.'] text

/-- What a path leads to, seen from the root. -/
def locate (disk : Disk) (path : String) : Except Fault Location := do
  if path.isEmpty then throw .notFound
  let location ← disk.follow [] (Path.parts path)
  match disk.entry? location with
  | none => throw .notFound
  | some (.file _) => if wantsDirectory path then throw .notDirectory else return location
  | some .directory => return location

/-- The location of a path that has an entry. -/
def locate? (disk : Disk) (path : String) : Option Location := (disk.locate path).toOption

/-- A path leads to a file. -/
def isFile (disk : Disk) (path : String) : Bool :=
  match (disk.locate? path).bind disk.entry? with
  | some (.file _) => true
  | _ => false

-- ========================================================== reading, writing

/-- The bytes of the file at a path. -/
def read (disk : Disk) (path : String) : Except Fault Content := do
  let location ← disk.locate path
  match disk.entry? location with
  | some (.file content) => return content
  | _ => throw .isDirectory

/-- The text of the file at a path. -/
def readText (disk : Disk) (path : String) : Except Fault (List Char) := do
  match ← disk.read path with
  | .text chars => return chars
  | .binary _ => throw .notText

/-- Writes the file at a path, which need not exist; its directory must. -/
def write (disk : Disk) (path : String) (content : Content) : Except Fault Disk := do
  match disk.locate path with
  | .ok location =>
    match disk.entry? location with
    | some .directory => throw .isDirectory
    | _ => return disk.put location (.file content)
  | .error .notFound =>
    match Path.parent? path, Path.fileName? path with
    | some parent, some name =>
      if wantsDirectory path then throw .isDirectory
      let directory ← disk.locate parent
      match disk.entry? directory with
      | some (.file _) => throw .notDirectory
      | _ => return disk.put (directory ++ [name]) (.file content)
    | _, _ => throw .notFound
  | .error fault => throw fault

end Disk

end Assay
