/-
Reading TOML documents.

Readers answer what they read and the characters left. Those that go on for an
unknown number of rounds recurse on a bound that the length of the document
exceeds, since every round takes a character.
-/
import Assay.Toml.Item
import Assay.Toml.Quoted
import Assay.Toml.Scalar

namespace Assay.Toml

open Text

-- ================================================================== keys

/-- How deep values may be nested, and how long a dotted key may be. -/
def depthLimit : Nat := 79

/-- What a key without quotes is made of. -/
def isBare (c : Char) : Bool := c.isAlphanum || c = '_' || c = '-'

/-- A key without dots. -/
def key? (text : List Char) : Option (Key × List Char) :=
  match lineText? text with
  | some found => some found
  | none =>
    let (key, rest) := text.span isBare
    if key.isEmpty then none else some (key, rest)

/-- Keys with dots between them, and blanks around those. -/
def keys? : (rounds : Nat) → List Char → Option (List Key × List Char)
  | 0, _ => none
  | rounds + 1, text => do
    let (key, rest) ← key? (skipSpaces text)
    match skipSpaces rest with
    | '.' :: rest =>
      let (keys, rest) ← keys? rounds rest
      return (key :: keys, rest)
    | rest => return ([key], rest)

/-- A dotted key. -/
def path? (text : List Char) : Option (List Key × List Char) := do
  let (path, rest) ← keys? (text.length + 1) text
  guard (path.length ≤ depthLimit)
  return (path, rest)

-- ================================================================ values

mutual

/-- A value. `depth` bounds how deep values may be nested in it. -/
def value? : (rounds depth : Nat) → List Char → Option (Item × List Char)
  | 0, _, _ => none
  | rounds + 1, depth, text =>
    match text, depth with
    | '[' :: rest, depth + 1 => (afterArray? rounds depth rest).map fun rest => (.closed, rest)
    | '[' :: _, 0 => none
    | '\x7b' :: rest, depth + 1 =>
      match skipSpaces rest with
      | '\x7d' :: rest => some (.closed, rest)
      | rest => (afterPairs? rounds depth [] rest).map fun rest => (.closed, rest)
    | '\x7b' :: _, 0 => none
    | '\x22' :: _, _ => (quotedText? text).map fun (chars, rest) => (.text chars, rest)
    | '\x27' :: _, _ => (quotedText? text).map fun (chars, rest) => (.text chars, rest)
    | text, _ => (afterScalar? text).map fun rest => (.closed, rest)

/-- What follows the elements of an array; a comma may stand after the last. -/
def afterArray? : (rounds depth : Nat) → List Char → Option (List Char)
  | 0, _, _ => none
  | rounds + 1, depth, text => do
    match ← skipFiller rounds text with
    | ']' :: rest => return rest
    | text =>
      let (_, rest) ← value? rounds depth text
      match ← skipFiller rounds rest with
      | ']' :: rest => return rest
      | ',' :: rest => afterArray? rounds depth rest
      | _ => none

/-- What follows the pairs of an inline table, of which `entries` were read. -/
def afterPairs? : (rounds depth : Nat) → Entries → List Char → Option (List Char)
  | 0, _, _, _ => none
  | rounds + 1, depth, entries, text => do
    match ← path? text with
    | (path, '=' :: rest) =>
      let (value, rest) ← value? rounds depth (skipSpaces rest)
      let entries ← assign value true path entries
      match skipSpaces rest with
      | '\x7d' :: rest => return rest
      | ',' :: rest => afterPairs? rounds depth entries rest
      | _ => none
    | _ => none

end

-- ============================================================= documents

/-- The entries of a document of which `entries` were read, and `header` last. -/
def lines? : (rounds : Nat) → (header : List Key) → Entries → List Char → Option Entries
  | 0, _, _, _ => none
  | rounds + 1, header, entries, text => do
    match skipSpaces text with
    | [] => return entries
    | '[' :: '[' :: rest =>
      match ← path? rest with
      | (path, ']' :: ']' :: rest) =>
        let entries ← addTable path entries
        lines? rounds path entries (← afterLine? rest)
      | _ => none
    | '[' :: rest =>
      match ← path? rest with
      | (path, ']' :: rest) =>
        let entries ← openTable path entries
        lines? rounds path entries (← afterLine? rest)
      | _ => none
    | c :: rest =>
      if c = '#' || c = '\n' || c = '\r' then
        lines? rounds header entries (← afterLine? (c :: rest))
      else match ← path? (c :: rest) with
        | (path, '=' :: rest) =>
          let (value, rest) ← value? (rest.length + 1) depthLimit (skipSpaces rest)
          let entries ← assignUnder header path value entries
          lines? rounds header entries (← afterLine? rest)
        | _ => none

/-- The text without a byte order mark in front. -/
def skipMark : List Char → List Char
  | '\ufeff' :: rest => rest
  | text => text

/-- The entries of a document. -/
def parse? (text : List Char) : Option Entries := lines? (text.length + 1) [] [] (skipMark text)

end Assay.Toml
