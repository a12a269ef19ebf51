/-
Finite maps from strings, kept in the order of their keys. Strings compare
character by character, so two maps with the same contents list them alike,
whatever the order of insertion.
-/

namespace Assay

/-- Entries in strictly increasing order of their keys. -/
structure Catalog (α : Type) where
  entries : List (String × α)

namespace Catalog

variable {α : Type}

/-- No entries. -/
def empty : Catalog α := ⟨[]⟩

/-- Inserts an entry into ordered ones, in place of the one with its key. -/
def insertInto (key : String) (value : α) : List (String × α) → List (String × α)
  | [] => [(key, value)]
  | (other, kept) :: rest =>
    if key = other then (key, value) :: rest
    else if key < other then (key, value) :: (other, kept) :: rest
    else (other, kept) :: insertInto key value rest

/-- Inserts an entry; an earlier one with the same key is lost. -/
def insert (catalog : Catalog α) (key : String) (value : α) : Catalog α :=
  ⟨insertInto key value catalog.entries⟩

/-- The value under a key. -/
def find? (catalog : Catalog α) (key : String) : Option α :=
  (catalog.entries.find? (·.1 == key)).map (·.2)

/-- The keys in order. -/
def keys (catalog : Catalog α) : List String := catalog.entries.map (·.1)

/-- The values in the order of their keys. -/
def values (catalog : Catalog α) : List α := catalog.entries.map (·.2)

/-- The number of entries. -/
def size (catalog : Catalog α) : Nat := catalog.entries.length

/-- The catalog of a list of entries; of two with one key the later counts. -/
def ofList (entries : List (String × α)) : Catalog α :=
  entries.foldl (fun catalog entry => catalog.insert entry.1 entry.2) empty

end Catalog

end Assay
