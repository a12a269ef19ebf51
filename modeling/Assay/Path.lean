/-
Slash-separated paths. A path is text and stays the text it was given as;
what is compared are its parts, so doubled slashes, `.` in the middle and a
slash at the end make no difference between two paths.
-/
import Assay.Text.Search

namespace Assay.Path

open Assay.Text

/-- A part of a path. -/
inductive Part where
  | root
  | here
  | up
  | name (name : String)
deriving DecidableEq

/-- A path cut into what it starts from and the segments after it. The lead is
`/`, a `.` that stands first, or nothing. -/
structure Pieces where
  lead : List Char
  segments : List (List Char)

/-- Segments that say nothing: empty ones and `.`. -/
def isIdle (segment : List Char) : Bool := segment.isEmpty || segment == ['.']

/-- Cuts a path at its slashes. -/
def pieces (path : String) : Pieces :=
  match path.toList with
  | '/' :: body => ⟨['/'], splitAt (· == '/') body⟩
  | '.' :: [] => ⟨['.'], []⟩
  | '.' :: '/' :: body => ⟨['.'], splitAt (· == '/') ('/' :: body)⟩
  | [] => ⟨[], []⟩
  | body => ⟨[], splitAt (· == '/') body⟩

/-- Segments without the idle ones at the end. -/
def trimmedEnd (segments : List (List Char)) : List (List Char) :=
  (segments.reverse.dropWhile isIdle).reverse

/-- The path of a lead and segments, without idle segments at the end. -/
def assemble (lead : List Char) (segments : List (List Char)) : String :=
  String.ofList (lead ++ join ['/'] (trimmedEnd segments))

/-- The part a segment stands for. -/
def Part.ofSegment (segment : List Char) : Part :=
  if segment == ['.', '.'] then .up else .name (String.ofList segment)

/-- The parts of a path. -/
def parts (path : String) : List Part :=
  let cut := pieces path
  let first := match cut.lead with
    | ['/'] => [Part.root]
    | ['.'] => [Part.here]
    | _ => []
  first ++ (cut.segments.filter (!isIdle ·)).map Part.ofSegment

/-- The names among the parts. -/
def names (path : String) : List String :=
  (parts path).filterMap fun
    | .name name => some name
    | _ => none

/-- The path starts at the root. -/
def isAbsolute (path : String) : Bool := path.toList.head? == some '/'

/-- Both paths have the same parts. -/
def same (a b : String) : Bool := parts a == parts b

/-- The path without its last part. -/
def parent? (path : String) : Option String :=
  let cut := pieces path
  match (trimmedEnd cut.segments).reverse with
  | _ :: before => some (assemble cut.lead before.reverse)
  | [] => if cut.lead == ['.'] then some "" else none

/-- The last part, when it is a name. -/
def fileName? (path : String) : Option String :=
  match (parts path).getLast? with
  | some (.name name) => some name
  | _ => none

/-- A name before and after its last dot; a dot that begins the name does not
count, and neither do the dots of `..`. -/
def splitName (name : String) : List Char × Option (List Char) :=
  let text := name.toList
  let suffix := text.reverse.takeWhile (· ≠ '.')
  let stem := (text.reverse.drop (suffix.length + 1)).reverse
  if stem.isEmpty then (text, none) else (stem, some suffix.reverse)

/-- The extension of the last part. -/
def extension? (path : String) : Option String :=
  (fileName? path).bind fun name => (splitName name).2.map String.ofList

/-- The last part without its extension. -/
def stem? (path : String) : Option String :=
  (fileName? path).map fun name => String.ofList (splitName name).1

/-- The path with one more part at its end. An empty path has nothing to put a
slash after; an absolute second path replaces the first. -/
def push (path more : String) : String :=
  if isAbsolute more || path.isEmpty then more
  else if endsWith ['/'] path.toList then path ++ more
  else path ++ "/" ++ more

/-- The path with another last part. A path without a file name gains one. -/
def withFileName (path name : String) : String :=
  match fileName? path, parent? path with
  | some _, some parent => push parent name
  | _, _ => push path name

/-- Segments after so many parts, idle ones skipped on the way. -/
def dropParts : Nat → List (List Char) → List (List Char)
  | 0, segments => segments.dropWhile isIdle
  | _ + 1, [] => []
  | count + 1, segment :: segments =>
    if isIdle segment then dropParts (count + 1) segments else dropParts count segments

/-- What is left of a path after the parts of another, when it begins with
them. -/
def after? (lead path : String) : Option String :=
  let wanted := parts lead
  if wanted == (parts path).take wanted.length then
    let cut := pieces path
    match wanted.length with
    | 0 => some (assemble cut.lead cut.segments)
    | n + 1 =>
      let inSegments := if cut.lead.isEmpty then n + 1 else n
      some (assemble [] (dropParts inSegments cut.segments))
  else none

end Assay.Path
