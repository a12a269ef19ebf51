/-
Reading JSON.

Readers answer what they read and the characters left, and recurse on a bound
that the length of the text exceeds.
-/
import Assay.Json.Value
import Assay.Text.Numeral
import Assay.Text.Search

namespace Assay.Json

open Text

/-- White space between tokens. -/
def isFiller (c : Char) : Bool := c = ' ' || c = '\t' || c = '\n' || c = '\r'

/-- The text without the white space it begins with. -/
def skipFiller (text : List Char) : List Char := text.dropWhile isFiller

-- =============================================================== strings

/-- The sixteen bits that four hexadecimal digits write, and what follows. -/
def unit? (text : List Char) : Option (Nat × List Char) :=
  let digits := text.take 4
  if digits.length = 4 && digits.all isHexDigit then some (numeral 16 digits, text.drop 4) else none

/-- The character that a unit writes, with the second of its pair where there
has to be one, and what follows. -/
def unitChar? (text : List Char) : Option (Char × List Char) := do
  let (first, rest) ← unit? text
  if first < 0xD800 || 0xDFFF < first then return (Char.ofNat first, rest)
  guard (first < 0xDC00)
  let (second, rest) ← unit? (← after? ['\x5c', 'u'] rest)
  guard (0xDC00 ≤ second && second ≤ 0xDFFF)
  return (Char.ofNat (0x10000 + (first - 0xD800) * 0x400 + (second - 0xDC00)), rest)

/-- The character an escape writes, and what follows it. The backslash has been
read. -/
def escaped? : List Char → Option (Char × List Char)
  | '\x22' :: rest => some ('\x22', rest)
  | '\x5c' :: rest => some ('\x5c', rest)
  | '/' :: rest => some ('/', rest)
  | 'b' :: rest => some ('\x08', rest)
  | 'f' :: rest => some ('\x0c', rest)
  | 'n' :: rest => some ('\n', rest)
  | 'r' :: rest => some ('\r', rest)
  | 't' :: rest => some ('\t', rest)
  | 'u' :: rest => unitChar? rest
  | _ => none

/-- The text up to the closing quote, and what follows that. -/
def quotedText? : (rounds : Nat) → List Char → Option (List Char × List Char)
  | 0, _ => none
  | _, [] => none
  | _ + 1, '\x22' :: rest => some ([], rest)
  | rounds + 1, '\x5c' :: rest => do
    let (c, rest) ← escaped? rest
    let (text, rest) ← quotedText? rounds rest
    return (c :: text, rest)
  | rounds + 1, c :: rest => do
    guard (32 ≤ c.toNat)
    let (text, rest) ← quotedText? rounds rest
    return (c :: text, rest)

-- =============================================================== numbers

/-- The form of a number's whole part; only zero begins with zero. -/
def isWhole (digits : List Char) : Bool := digits == ['0'] || (!digits.isEmpty && digits.head? != some '0')

/-- The number at the front of a text as it is written, and what follows it. A
number that rounds to infinity is none. -/
def number? (text : List Char) : Option (List Char × List Char) := do
  let (sign, rest) := text.span (· = '-')
  let (whole, rest) := rest.span Char.isDigit
  guard (sign.length ≤ 1 && isWhole whole)
  let (fraction, rest) ← match rest with
    | '.' :: rest =>
      let (digits, rest) := rest.span Char.isDigit
      if digits.isEmpty then none else some (digits, rest)
    | rest => some ([], rest)
  let (lower, power, rest) ← match rest with
    | c :: rest' =>
      if c = 'e' || c = 'E' then
        let (mark, rest') := rest'.span fun c => c = '+' || c = '-'
        let (digits, rest') := rest'.span Char.isDigit
        if digits.isEmpty || 1 < mark.length then none
        else some (mark == ['-'], numeral 10 digits, rest')
      else some (false, 0, rest)
    | [] => some (false, 0, [])
  guard (!overflows (numeral 10 (whole ++ fraction)) (if lower then 0 else power)
    (fraction.length + if lower then power else 0))
  return (text.take (text.length - rest.length), rest)

-- ================================================================ values

/-- How deep values may be nested. -/
def depthLimit : Nat := 127

mutual

/-- The value at the front of a text, and what follows it. -/
def value? : (rounds depth : Nat) → List Char → Option (Json × List Char)
  | 0, _, _ => none
  | rounds + 1, depth, text =>
    match skipFiller text, depth with
    | '\x22' :: rest, _ =>
      (quotedText? (rest.length + 1) rest).map fun (chars, rest) => (.string chars, rest)
    | '[' :: rest, depth + 1 => match skipFiller rest with
      | ']' :: rest => some (.array [], rest)
      | rest => (elements? rounds depth rest).map fun (values, rest) => (.array values, rest)
    | '[' :: _, 0 => none
    | '\x7b' :: rest, depth + 1 => match skipFiller rest with
      | '\x7d' :: rest => some (.object [], rest)
      | rest => (members? rounds depth rest).map fun (members, rest) => (.object members, rest)
    | '\x7b' :: _, 0 => none
    | 't' :: 'r' :: 'u' :: 'e' :: rest, _ => some (.boolean true, rest)
    | 'f' :: 'a' :: 'l' :: 's' :: 'e' :: rest, _ => some (.boolean false, rest)
    | 'n' :: 'u' :: 'l' :: 'l' :: rest, _ => some (.null, rest)
    | text, _ => (number? text).map fun (written, rest) => (.number written, rest)

/-- The elements up to the closing bracket, and what follows that. -/
def elements? : (rounds depth : Nat) → List Char → Option (List Json × List Char)
  | 0, _, _ => none
  | rounds + 1, depth, text => do
    let (value, rest) ← value? rounds depth text
    match skipFiller rest with
    | ']' :: rest => return ([value], rest)
    | ',' :: rest =>
      let (values, rest) ← elements? rounds depth rest
      return (value :: values, rest)
    | _ => none

/-- The members up to the closing brace, and what follows that. -/
def members? : (rounds depth : Nat) → List Char → Option (List (List Char × Json) × List Char)
  | 0, _, _ => none
  | rounds + 1, depth, text => do
    let rest ← after? ['\x22'] (skipFiller text)
    let (key, rest) ← quotedText? (rest.length + 1) rest
    let rest ← after? [':'] (skipFiller rest)
    let (value, rest) ← value? rounds depth rest
    match skipFiller rest with
    | '\x7d' :: rest => return ([(key, value)], rest)
    | ',' :: rest =>
      let (members, rest) ← members? rounds depth rest
      return ((key, value) :: members, rest)
    | _ => none

end

/-- The value that a text writes. -/
def parse? (text : List Char) : Option Json := do
  let (value, rest) ← value? (2 * text.length + 2) depthLimit text
  guard (skipFiller rest).isEmpty
  return value

end Assay.Json
