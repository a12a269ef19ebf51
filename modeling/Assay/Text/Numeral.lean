/-
Numerals: the value of digits in a base up to sixteen. Only ASCII digits count.
-/

namespace Assay.Text

/-- A hexadecimal digit of either case. -/
def isHexDigit (c : Char) : Bool :=
  c.isDigit || ('a' ≤ c && c ≤ 'f') || ('A' ≤ c && c ≤ 'F')

/-- The value of a hexadecimal digit. -/
def digitValue (c : Char) : Nat :=
  if c.isDigit then c.toNat - '0'.toNat
  else if 'a' ≤ c then c.toNat - 'a'.toNat + 10
  else c.toNat - 'A'.toNat + 10

/-- The number that digits write in a base. -/
def numeral (base : Nat) (digits : List Char) : Nat :=
  digits.foldl (fun value c => value * base + digitValue c) 0

/-- The number that a text of decimal digits writes. -/
def decimal? (text : List Char) : Option Nat :=
  if !text.isEmpty && text.all Char.isDigit then some (numeral 10 text) else none

/-- The character that so many hexadecimal digits name at the front of a text,
and what follows them. Surrogates and numbers past the last plane name none. -/
def codePoint? (length : Nat) (text : List Char) : Option (Char × List Char) :=
  let digits := text.take length
  let value := numeral 16 digits
  if digits.length = length && digits.all isHexDigit && value.isValidChar then
    some (Char.ofNat value, text.drop length)
  else none

/-- A number of 64 bits with a fraction rounds to infinity from here on. -/
def floatBound : Nat := Nat.pow 2 1024 - Nat.pow 2 970

/-- `digits · 10 ^ (up - down)` rounds to infinity. Far from the bound the
number of digits decides. -/
def overflows (digits up down : Nat) : Bool :=
  let size := (toString digits).length + up
  if digits = 0 || size < 300 + down then false
  else if size > 320 + down then true
  else decide (floatBound * Nat.pow 10 down ≤ digits * Nat.pow 10 up)

end Assay.Text
