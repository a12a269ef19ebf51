/-
The SHA-256 digest of a text of bytes: the message is padded to whole blocks,
each block is stretched to sixty-four words, and the words are mixed one after
the other into a state of eight.
-/

namespace Assay.Hash

-- ================================================================ tables

/-- The first fractional bits of the square roots of the first eight primes. -/
def firstState : List UInt32 :=
  [0x6a09e667, 0xbb67ae85, 0x3c6ef372, 0xa54ff53a, 0x510e527f, 0x9b05688c, 0x1f83d9ab, 0x5be0cd19]

/-- The first fractional bits of the cube roots of the first sixty-four primes. -/
def roundWords : List UInt32 := [
    0x428a2f98, 0x71374491, 0xb5c0fbcf, 0xe9b5dba5, 0x3956c25b, 0x59f111f1, 0x923f82a4, 0xab1c5ed5,
    0xd807aa98, 0x12835b01, 0x243185be, 0x550c7dc3, 0x72be5d74, 0x80deb1fe, 0x9bdc06a7, 0xc19bf174,
    0xe49b69c1, 0xefbe4786, 0x0fc19dc6, 0x240ca1cc, 0x2de92c6f, 0x4a7484aa, 0x5cb0a9dc, 0x76f988da,
    0x983e5152, 0xa831c66d, 0xb00327c8, 0xbf597fc7, 0xc6e00bf3, 0xd5a79147, 0x06ca6351, 0x14292967,
    0x27b70a85, 0x2e1b2138, 0x4d2c6dfc, 0x53380d13, 0x650a7354, 0x766a0abb, 0x81c2c92e, 0x92722c85,
    0xa2bfe8a1, 0xa81a664b, 0xc24b8b70, 0xc76c51a3, 0xd192e819, 0xd6990624, 0xf40e3585, 0x106aa070,
    0x19a4c116, 0x1e376c08, 0x2748774c, 0x34b0bcb5, 0x391c0cb3, 0x4ed8aa4a, 0x5b9cca4f, 0x682e6ff3,
    0x748f82ee, 0x78a5636f, 0x84c87814, 0x8cc70208, 0x90befffa, 0xa4506ceb, 0xbef9a3f7, 0xc67178f2]

-- =============================================================== padding

/-- The bytes of a number, the highest first. -/
def bigEndian (width n : Nat) : List UInt8 :=
  (List.range width).map fun i => (n / Nat.pow 256 (width - 1 - i)).toUInt8

/-- A message filled up to whole blocks of sixty-four bytes: a one bit, zeros,
and the number of its bits. -/
def padded (message : List UInt8) : List UInt8 :=
  let zeros := (119 - message.length % 64) % 64
  message ++ 0x80 :: List.replicate zeros 0 ++ bigEndian 8 (8 * message.length)

/-- Bytes in groups of a width. -/
def grouped {α : Type} (width : Nat) : (rounds : Nat) → List α → List (List α)
  | 0, _ => []
  | _, [] => []
  | rounds + 1, bytes => bytes.take width :: grouped width rounds (bytes.drop width)

/-- The word that four bytes write, the highest first. -/
def word (bytes : List UInt8) : UInt32 := bytes.foldl (fun w b => w * 256 + b.toUInt32) 0

-- ================================================================ mixing

/-- A word turned to the right. -/
def turned (w : UInt32) (by_ : UInt32) : UInt32 := (w >>> by_) ||| (w <<< (32 - by_))

/-- The next word of a schedule, of which the last sixteen words are given with
the newest first. -/
def nextWord (newest : List UInt32) : UInt32 :=
  let at_ (back : Nat) : UInt32 := newest[back - 1]?.getD 0
  let low := at_ 15
  let high := at_ 2
  at_ 16 + (turned low 7 ^^^ turned low 18 ^^^ (low >>> 3)) + at_ 7
    + (turned high 17 ^^^ turned high 19 ^^^ (high >>> 10))

/-- The sixty-four words of a block. -/
def schedule (block : List UInt8) : List UInt32 :=
  let first := (grouped 4 16 block).map word
  ((List.range 48).foldl (fun newest _ => nextWord newest :: newest) first.reverse).reverse

/-- Mixes a word into the state. -/
def mix (state : List UInt32) (input : UInt32 × UInt32) : List UInt32 :=
  match state with
  | [a, b, c, d, e, f, g, h] =>
    let choice := (e &&& f) ^^^ ((~~~ e) &&& g)
    let majority := (a &&& b) ^^^ (a &&& c) ^^^ (b &&& c)
    let t₁ := h + (turned e 6 ^^^ turned e 11 ^^^ turned e 25) + choice + input.1 + input.2
    let t₂ := (turned a 2 ^^^ turned a 13 ^^^ turned a 22) + majority
    [t₁ + t₂, a, b, c, d + t₁, e, f, g]
  | state => state

/-- Takes a block into the state. -/
def takeBlock (state : List UInt32) (block : List UInt8) : List UInt32 :=
  List.zipWith (· + ·) state ((roundWords.zip (schedule block)).foldl mix state)

/-- The digest of a message. -/
def sha256 (message : List UInt8) : List UInt8 :=
  let bytes := padded message
  ((grouped 64 bytes.length bytes).foldl takeBlock firstState).flatMap fun w => bigEndian 4 w.toNat

/-- Bytes in hexadecimal digits, in lower case. -/
def hexadecimal (bytes : List UInt8) : List Char :=
  let digit (n : Nat) : Char := if n < 10 then Char.ofNat (48 + n) else Char.ofNat (87 + n)
  bytes.flatMap fun b => [digit (b.toNat / 16), digit (b.toNat % 16)]

end Assay.Hash
