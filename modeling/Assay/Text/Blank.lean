/-
White space and trimming. Blank characters are the Unicode White_Space
property, so a no-break space and a line separator are trimmed like a tab.
-/

namespace Assay.Text

/-- `c` is white space. -/
def isBlank (c : Char) : Bool :=
  let n := c.toNat
  (decide (9 ≤ n) && decide (n ≤ 13)) || n == 32 || n == 0x85 || n == 0xA0 || n == 0x1680
    || (decide (0x2000 ≤ n) && decide (n ≤ 0x200A))
    || n == 0x2028 || n == 0x2029 || n == 0x202F || n == 0x205F || n == 0x3000

/-- The text without its leading blanks. -/
def trimStart (text : List Char) : List Char := text.dropWhile isBlank

/-- The text without its trailing blanks. -/
def trimEnd (text : List Char) : List Char := (text.reverse.dropWhile isBlank).reverse

/-- The text without blanks at either end. -/
def trim (text : List Char) : List Char := trimEnd (trimStart text)

/-- Nothing but blanks, or nothing at all. -/
def allBlank (text : List Char) : Bool := text.all isBlank

/-- `trim` on a string. -/
def trimmed (text : String) : String := String.ofList (trim text.toList)

/-- The words between runs of blanks; no word is empty. -/
def words (text : List Char) : List (List Char) :=
  go text [] |>.filter (!·.isEmpty)
where
  /-- `word` holds the characters of the current word, last first. -/
  go : List Char → List Char → List (List Char)
    | [], word => [word.reverse]
    | c :: rest, word => if isBlank c then word.reverse :: go rest [] else go rest (c :: word)

end Assay.Text
