/-
Bytes and text. `decode?` accepts exactly the well-formed encodings, the
shortest form of each scalar value and no surrogates; `decodeLossy` reads
anything and writes a replacement character for each longest stretch that
begins a character and breaks off.
-/

namespace Assay.Text.Utf8

/-- The bytes of a character. -/
def encodeChar (c : Char) : List UInt8 :=
  let n := c.toNat
  let tail (k : Nat) : UInt8 := (0x80 + k % 64).toUInt8
  if n < 0x80 then [n.toUInt8]
  else if n < 0x800 then [(0xC0 + n / 64).toUInt8, tail n]
  else if n < 0x10000 then [(0xE0 + n / 4096).toUInt8, tail (n / 64), tail n]
  else [(0xF0 + n / 262144).toUInt8, tail (n / 4096), tail (n / 64), tail n]

/-- The bytes of a text. -/
def encode (text : List Char) : List UInt8 := text.flatMap encodeChar

/-- How many bytes a character takes. -/
def width (c : Char) : Nat :=
  if c.toNat < 0x80 then 1 else if c.toNat < 0x800 then 2 else if c.toNat < 0x10000 then 3 else 4

/-- How many bytes a text takes. -/
def size (text : List Char) : Nat := text.foldl (fun size c => size + width c) 0

/-- What a first byte promises: how many bytes follow it, the bits it
contributes, and the range that the second byte must lie in. -/
structure Opening where
  following : Nat
  bits : Nat
  low : Nat
  high : Nat

/-- The promise of a first byte above 127, if it can be one. The narrower
ranges shut out long forms, surrogates and values past the last plane. -/
def opening? (byte : Nat) : Option Opening :=
  if byte < 0xC2 then none
  else if byte < 0xE0 then some ⟨1, byte - 0xC0, 0x80, 0xBF⟩
  else if byte = 0xE0 then some ⟨2, 0, 0xA0, 0xBF⟩
  else if byte = 0xED then some ⟨2, 0xD, 0x80, 0x9F⟩
  else if byte < 0xF0 then some ⟨2, byte - 0xE0, 0x80, 0xBF⟩
  else if byte = 0xF0 then some ⟨3, 0, 0x90, 0xBF⟩
  else if byte < 0xF4 then some ⟨3, byte - 0xF0, 0x80, 0xBF⟩
  else if byte = 0xF4 then some ⟨3, 4, 0x80, 0x8F⟩
  else none

/-- Reads the bytes that follow a first byte. Answers the character, or `none`
where the sequence breaks off, and in either case the bytes it has not used. -/
def followed : (following value low high : Nat) → List UInt8 → Option Char × List UInt8
  | 0, value, _, _, bytes => (some (Char.ofNat value), bytes)
  | _ + 1, _, _, _, [] => (none, [])
  | following + 1, value, low, high, byte :: bytes =>
    let b := byte.toNat
    if low ≤ b && b ≤ high then followed following (value * 64 + (b - 0x80)) 0x80 0xBF bytes
    else (none, byte :: bytes)

/-- The character at the front of some bytes, or `none` for a broken one, and
the bytes after it. -/
def front (byte : UInt8) (bytes : List UInt8) : Option Char × List UInt8 :=
  let b := byte.toNat
  if b < 0x80 then (some (Char.ofNat b), bytes)
  else match opening? b with
    | none => (none, bytes)
    | some o => followed o.following o.bits o.low o.high bytes

/-- The characters of some bytes, `none` for each broken one. As many rounds as
bytes are enough. -/
def characters : (rounds : Nat) → List UInt8 → List (Option Char)
  | 0, _ => []
  | _ + 1, [] => []
  | rounds + 1, byte :: bytes =>
    let (c, rest) := front byte bytes
    c :: characters rounds rest

/-- The text that some bytes encode, if they encode any. -/
def decode? (bytes : List UInt8) : Option (List Char) :=
  (characters bytes.length bytes).mapM id

/-- The text of some bytes, with a replacement character for what is broken. -/
def decodeLossy (bytes : List UInt8) : List Char :=
  (characters bytes.length bytes).map (·.getD '\uFFFD')

end Assay.Text.Utf8
