/-
What a TOML document holds: items under keys, some of them tables of their own.

A value other than a text is kept without its content, since all that matters
about it is that it was well formed. A table remembers how it came to be,
because that decides what may still be added to it:

  * a header opens a table that does not exist yet, or one that so far exists
    only because a longer header passed through it;
  * a dotted key adds to tables that dotted keys made, never to one that has a
    header, and puts its value only where a dotted key made the table;
  * a repeated header adds a table to those it opened before, and a path that
    leads through such tables goes to the last one.
-/

namespace Assay.Toml

-- ================================================================= items

/-- A name before an equals sign or in a header. -/
abbrev Key := List Char

/-- How a table came to be. -/
inductive Standing where
  /-- It has a header. -/
  | headed
  /-- A longer header passed through it. -/
  | passed
  /-- A dotted key made it. -/
  | dotted
deriving DecidableEq

/-- What stands under a key. -/
inductive Item where
  | text (chars : List Char)
  /-- A number, a truth value, a date, an array or an inline table. -/
  | closed
  | table (standing : Standing) (entries : List (Key × Item))
  /-- The tables of a repeated header. -/
  | tables (elements : List (List (Key × Item)))

/-- The items of a table under their keys. -/
abbrev Entries := List (Key × Item)

/-- The item under a key. -/
def item? (key : Key) (entries : Entries) : Option Item := (entries.find? (·.1 == key)).map (·.2)

/-- Puts an item under a key, in place of what is there. -/
def withItem (key : Key) (item : Item) (entries : Entries) : Entries :=
  if (item? key entries).isSome then
    entries.map fun entry => if entry.1 == key then (key, item) else entry
  else entries ++ [(key, item)]

-- ================================================================= paths

/-- Changes the last of several tables. -/
def reviseLast (change : Entries → Option Entries) : List Entries → Option (List Entries)
  | [] => none
  | [last] => (change last).map fun last => [last]
  | first :: rest => (reviseLast change rest).map (first :: ·)

/-- Changes what a header's path leads to. Tables that are missing on the way
come to be. -/
def revise (change : Option Item → Option Item) : List Key → Entries → Option Entries
  | [], _ => none
  | [key], entries => (change (item? key entries)).map fun item => withItem key item entries
  | key :: path, entries =>
    match item? key entries with
    | none =>
      (revise change path []).map fun inner => withItem key (.table .passed inner) entries
    | some (.table standing inner) =>
      (revise change path inner).map fun inner => withItem key (.table standing inner) entries
    | some (.tables elements) =>
      (reviseLast (revise change path) elements).map fun elements =>
        withItem key (.tables elements) entries
    | some _ => none

/-- Gives a dotted key its value, in a table that may or may not take values of
its own. A key has one value. -/
def assign (value : Item) : (takesValues : Bool) → List Key → Entries → Option Entries
  | _, [], _ => none
  | takesValues, [key], entries =>
    if takesValues && (item? key entries).isNone then some (withItem key value entries) else none
  | _, key :: path, entries =>
    match item? key entries with
    | none =>
      (assign value true path []).map fun inner => withItem key (.table .dotted inner) entries
    | some (.table .headed _) => none
    | some (.table standing inner) =>
      (assign value (standing == .dotted) path inner).map fun inner =>
        withItem key (.table standing inner) entries
    | some (.tables elements) =>
      (reviseLast (assign value false path) elements).map fun elements =>
        withItem key (.tables elements) entries
    | some _ => none

-- =============================================================== headers

/-- Opens the table of a header. -/
def openTable : List Key → Entries → Option Entries :=
  revise fun
    | none => some (.table .headed [])
    | some (.table .passed inner) => some (.table .headed inner)
    | some _ => none

/-- Opens one more table of a repeated header. -/
def addTable : List Key → Entries → Option Entries :=
  revise fun
    | none => some (.tables [[]])
    | some (.tables elements) => some (.tables (elements ++ [[]]))
    | some _ => none

/-- Gives a dotted key its value in the table of a header. Without a header
that is the document itself. -/
def assignUnder (header path : List Key) (value : Item) (entries : Entries) : Option Entries :=
  match header with
  | [] => assign value true path entries
  | header => revise (fun
    | some (.table standing inner) =>
      (assign value true path inner).map fun inner => .table standing inner
    | some (.tables elements) =>
      (reviseLast (assign value true path) elements).map fun elements => .tables elements
    | _ => none) header entries

end Assay.Toml
