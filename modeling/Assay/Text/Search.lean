/-
Finding pieces of a text: what follows a given beginning, what precedes a given
ending, and where a piece first occurs. All on lists of characters, by
recursion on the text.
-/

namespace Assay.Text

/-- What follows `lead`, when the text begins with it. -/
def after? : (lead text : List Char) → Option (List Char)
  | [], text => some text
  | _ :: _, [] => none
  | a :: lead, b :: text => if a = b then after? lead text else none

/-- What precedes `tail`, when the text ends with it. -/
def before? (tail text : List Char) : Option (List Char) :=
  (after? tail.reverse text.reverse).map List.reverse

/-- The text begins with `lead`. -/
def beginsWith (lead text : List Char) : Bool := (after? lead text).isSome

/-- The text ends with `tail`. -/
def endsWith (tail text : List Char) : Bool := (before? tail text).isSome

/-- The text around the first occurrence of `piece`. -/
def splitOnce? (piece : List Char) : List Char → Option (List Char × List Char)
  | [] => if piece.isEmpty then some ([], []) else none
  | c :: text =>
    match after? piece (c :: text) with
    | some rest => some ([], rest)
    | none => (splitOnce? piece text).map fun (left, right) => (c :: left, right)

/-- `piece` occurs somewhere in the text. -/
def occurs (piece text : List Char) : Bool := (splitOnce? piece text).isSome

/-- The parts between separators; one more part than there are separators. -/
def splitAt (isSeparator : Char → Bool) : List Char → List (List Char)
  | [] => [[]]
  | c :: text =>
    if isSeparator c then [] :: splitAt isSeparator text
    else match splitAt isSeparator text with
      | [] => [[c]]
      | part :: parts => (c :: part) :: parts

/-- Parts put together again with `glue` between them. -/
def join (glue : List Char) : List (List Char) → List Char
  | [] => []
  | [part] => part
  | part :: parts => part ++ glue ++ join glue parts

/-- The text without the characters of a kind at either end. -/
def strip (unwanted : Char → Bool) (text : List Char) : List Char :=
  ((text.dropWhile unwanted).reverse.dropWhile unwanted).reverse

end Assay.Text
