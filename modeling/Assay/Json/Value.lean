/-
JSON values and their compact written form.
-/

namespace Assay

/-- A JSON value. A number is kept as it is written. -/
inductive Json where
  | null
  | boolean (value : Bool)
  | number (written : List Char)
  | string (chars : List Char)
  | array (elements : List Json)
  | object (members : List (List Char × Json))

namespace Json

-- ================================================================ access

/-- The member of an object under a key; the last one, when there are more. -/
def member? (key : String) : Json → Option Json
  | object members => (members.reverse.find? (·.1 == key.toList)).map (·.2)
  | _ => none

/-- The element of an array at an index. -/
def element? (index : Nat) : Json → Option Json
  | array elements => elements[index]?
  | _ => none

/-- The characters of a string. -/
def string? : Json → Option (List Char)
  | string chars => some chars
  | _ => none

-- =============================================================== writing

/-- Text as a value. -/
def ofText (text : String) : Json := string text.toList

/-- The digits of a number below sixteen. -/
private def jsonHexDigit (n : Nat) : Char := if n < 10 then Char.ofNat (48 + n) else Char.ofNat (87 + n)

/-- A character within quotes. Quotes, backslashes and control characters are
escaped, the common ones with a letter. -/
def escape (c : Char) : List Char :=
  if c = '\x22' || c = '\x5c' then ['\x5c', c]
  else if c = '\n' then ['\x5c', 'n']
  else if c = '\r' then ['\x5c', 'r']
  else if c = '\t' then ['\x5c', 't']
  else if c = '\x08' then ['\x5c', 'b']
  else if c = '\x0c' then ['\x5c', 'f']
  else if c.toNat < 32 then
    ['\x5c', 'u', '0', '0', jsonHexDigit (c.toNat / 16), jsonHexDigit (c.toNat % 16)]
  else [c]

/-- A text between quotes. -/
def quoted (chars : List Char) : List Char := '\x22' :: chars.flatMap escape ++ ['\x22']

mutual

/-- The written form of a value, without blanks. -/
def compact : Json → List Char
  | null => ['n', 'u', 'l', 'l']
  | boolean true => ['t', 'r', 'u', 'e']
  | boolean false => ['f', 'a', 'l', 's', 'e']
  | number written => written
  | string chars => quoted chars
  | array elements => '[' :: compactElements elements ++ [']']
  | object members => '\x7b' :: compactMembers members ++ ['\x7d']

/-- The written forms of values, with commas between them. -/
def compactElements : List Json → List Char
  | [] => []
  | element :: rest =>
    compact element ++ (if rest.isEmpty then [] else [',']) ++ compactElements rest

/-- The written forms of members, with commas between them. -/
def compactMembers : List (List Char × Json) → List Char
  | [] => []
  | (key, value) :: rest =>
    quoted key ++ ':' :: compact value ++ (if rest.isEmpty then [] else [','])
      ++ compactMembers rest

end

end Json

end Assay
