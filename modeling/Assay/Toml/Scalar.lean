/-
The written forms of TOML's plain values: numbers, truth values and moments.

Such a value ends where a character stands that none of them can hold, so each
form is a test on a whole word.
-/
import Assay.Text.Numeral

namespace Assay.Toml

open Text

-- =============================================================== numbers

/-- Digits with single underscores between them. -/
def isGrouped (isDigit : Char → Bool) : List Char → Bool
  | [] => false
  | [c] => isDigit c
  | c :: '_' :: rest => isDigit c && isGrouped isDigit rest
  | c :: rest => isDigit c && isGrouped isDigit rest

/-- A decimal number without a sign; only zero begins with zero. -/
def isWhole (word : List Char) : Bool :=
  word == ['0'] || (word.head? != some '0' && isGrouped Char.isDigit word)

/-- A number's sign, if it is a minus, and the rest of it. -/
def signed : List Char → Bool × List Char
  | '-' :: rest => (true, rest)
  | '+' :: rest => (false, rest)
  | word => (false, word)

/-- The number that digits and underscores write. -/
def groupedValue (base : Nat) (word : List Char) : Nat := numeral base (word.filter (· ≠ '_'))

/-- Integers have 64 bits. -/
def integerBound : Nat := Nat.pow 2 63

/-- An integer in another base, after its mark. -/
def isBased (base : Nat) (isDigit : Char → Bool) (word : List Char) : Bool :=
  isGrouped isDigit word && decide (groupedValue base word < integerBound)

/-- The form of an integer. -/
def isInteger : List Char → Bool
  | '0' :: 'x' :: rest => isBased 16 isHexDigit rest
  | '0' :: 'o' :: rest => isBased 8 (fun c => '0' ≤ c && c ≤ '7') rest
  | '0' :: 'b' :: rest => isBased 2 (fun c => c = '0' || c = '1') rest
  | word =>
    let (negative, word) := signed word
    isWhole word && decide (groupedValue 10 word < integerBound + if negative then 1 else 0)

/-- What digits and underscores a word begins with, and the rest. -/
def leadingDigits (word : List Char) : List Char × List Char :=
  word.span fun c => c.isDigit || c = '_'

/-- The form of a fractional number: a fraction, an exponent or both. Minus
infinity may be written out as a number, plus infinity may not. -/
def isFloat (word : List Char) : Bool :=
  let (negative, word) := signed word
  let (whole, rest) := leadingDigits word
  let fraction := match rest with
    | '.' :: rest => some (leadingDigits rest).1
    | _ => none
  let rest := match rest with
    | '.' :: rest => (leadingDigits rest).2
    | rest => rest
  let exponent := match rest with
    | 'e' :: rest => some (signed rest)
    | 'E' :: rest => some (signed rest)
    | _ => none
  let digits := groupedValue 10 (whole ++ fraction.getD [])
  let places := ((fraction.getD []).filter (· ≠ '_')).length
  let power := ((exponent.map (·.2)).map (groupedValue 10)).getD 0
  let lower := ((exponent.map (·.1)).getD false)
  word == ['i', 'n', 'f'] || word == ['n', 'a', 'n']
    || isWhole whole && (fraction.isSome || exponent.isSome)
      && fraction.all (isGrouped Char.isDigit)
      && (exponent.isSome || rest.isEmpty)
      && exponent.all (fun e => isGrouped Char.isDigit e.2)
      && (negative || !overflows digits (if lower then 0 else power)
        (places + if lower then power else 0))

-- =============================================================== moments

/-- Two digits that write a number within bounds. -/
def twoDigits (low high : Nat) (a b : Char) : Bool :=
  a.isDigit && b.isDigit && decide (low ≤ numeral 10 [a, b]) && decide (numeral 10 [a, b] ≤ high)

/-- How many days a month has. -/
def daysIn (year month : Nat) : Nat :=
  if month = 2 then
    if year % 4 = 0 && (year % 100 ≠ 0 || year % 400 = 0) then 29 else 28
  else if [4, 6, 9, 11].contains month then 30
  else 31

/-- The form of a date. -/
def isDate : List Char → Bool
  | [y₁, y₂, y₃, y₄, '-', m₁, m₂, '-', d₁, d₂] =>
    [y₁, y₂, y₃, y₄].all Char.isDigit && twoDigits 1 12 m₁ m₂
      && twoDigits 1 (daysIn (numeral 10 [y₁, y₂, y₃, y₄]) (numeral 10 [m₁, m₂])) d₁ d₂
  | _ => false

/-- What follows the time of day that a word begins with. -/
def afterTime? : List Char → Option (List Char)
  | h₁ :: h₂ :: ':' :: m₁ :: m₂ :: ':' :: s₁ :: s₂ :: rest =>
    if twoDigits 0 23 h₁ h₂ && twoDigits 0 59 m₁ m₂ && twoDigits 0 60 s₁ s₂ then
      match rest with
      | '.' :: c :: rest => if c.isDigit then some (rest.dropWhile Char.isDigit) else none
      | rest => some rest
    else none
  | _ => none

/-- The form of a distance from universal time, which may be left out. -/
def isOffset : List Char → Bool
  | [] => true
  | ['Z'] => true
  | ['z'] => true
  | [sign, h₁, h₂, ':', m₁, m₂] =>
    (sign = '+' || sign = '-') && twoDigits 0 23 h₁ h₂ && twoDigits 0 59 m₁ m₂
  | _ => false

/-- The form of a date with a time of day. -/
def isDateTime (word : List Char) : Bool :=
  isDate (word.take 10) && match word.drop 10 with
    | mark :: time => ['T', 't', ' '].contains mark && (afterTime? time).any isOffset
    | [] => false

/-- The form of a moment: a date, a time of day or both. -/
def isMoment (word : List Char) : Bool :=
  isDate word || isDateTime word || afterTime? word == some []

-- ================================================================= words

/-- What plain values are made of. -/
def isPlain (c : Char) : Bool := c.isAlphanum || ['_', '+', '-', '.', ':'].contains c

/-- The form of a plain value. -/
def isScalar (word : List Char) : Bool :=
  word == ['t', 'r', 'u', 'e'] || word == ['f', 'a', 'l', 's', 'e']
    || isInteger word || isFloat word || isMoment word

/-- The word at the front of a text, and what follows. A date may be parted from
its time of day by a blank. -/
def plainWord (text : List Char) : List Char × List Char :=
  let (word, rest) := text.span isPlain
  match rest with
  | ' ' :: h₁ :: h₂ :: ':' :: after =>
    if isDate word && h₁.isDigit && h₂.isDigit then
      (word ++ ' ' :: h₁ :: h₂ :: ':' :: after.takeWhile isPlain, after.dropWhile isPlain)
    else (word, rest)
  | rest => (word, rest)

/-- What follows the plain value at the front of a text. -/
def afterScalar? (text : List Char) : Option (List Char) :=
  let (word, rest) := plainWord text
  if isScalar word then some rest else none

end Assay.Toml
