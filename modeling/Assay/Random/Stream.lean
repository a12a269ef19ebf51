/-
A reproducible stream of random words: the ChaCha stream cipher with twelve
rounds, keyed by a seed. The word at each position is a function of the seed
alone, so nothing is carried along but the position.
-/

namespace Assay.Random

-- ============================================================== the cipher

/-- Four words of the cipher's state. The state is a square of four rows. -/
structure Row where
  w0 : UInt32
  w1 : UInt32
  w2 : UInt32
  w3 : UInt32
deriving DecidableEq

namespace Row

/-- Word by word. -/
def zipWith (f : UInt32 → UInt32 → UInt32) (a b : Row) : Row :=
  ⟨f a.w0 b.w0, f a.w1 b.w1, f a.w2 b.w2, f a.w3 b.w3⟩

/-- The words moved one place to the left, around the end. -/
def turn (row : Row) : Row := ⟨row.w1, row.w2, row.w3, row.w0⟩

/-- The words from left to right. -/
def toList (row : Row) : List UInt32 := [row.w0, row.w1, row.w2, row.w3]

end Row

/-- A word with its bits moved around by `n` places to the left. -/
def rotateLeft (word : UInt32) (n : UInt32) : UInt32 := (word <<< n) ||| (word >>> (32 - n))

/-- The cipher's state. -/
structure Square where
  r0 : Row
  r1 : Row
  r2 : Row
  r3 : Row
deriving DecidableEq

namespace Square

/-- `a + b` in place of `a`, and then `d ^ a`, turned by `n` bits, in place of
`d`. -/
def mix (n : UInt32) (a b d : Row) : Row × Row :=
  let sum := a.zipWith (· + ·) b
  (sum, d.zipWith (fun x y => rotateLeft (x ^^^ y) n) sum)

/-- Stirs each column. -/
def stir (square : Square) : Square :=
  let (a, d) := mix 16 square.r0 square.r1 square.r3
  let (c, b) := mix 12 square.r2 d square.r1
  let (a, d) := mix 8 a b d
  let (c, b) := mix 7 c d b
  ⟨a, b, c, d⟩

/-- Turns the rows so that diagonals become columns. -/
def slant (square : Square) : Square :=
  ⟨square.r0, square.r1.turn, square.r2.turn.turn, square.r3.turn.turn.turn⟩

/-- Turns the rows back. -/
def straighten (square : Square) : Square :=
  ⟨square.r0, square.r1.turn.turn.turn, square.r2.turn.turn, square.r3.turn⟩

/-- Two rounds: the columns, then the diagonals. -/
def doubleRound (square : Square) : Square := square.stir.slant.stir.straighten

/-- The words row by row. -/
def toList (square : Square) : List UInt32 :=
  square.r0.toList ++ square.r1.toList ++ square.r2.toList ++ square.r3.toList

/-- Word by word. -/
def add (a b : Square) : Square :=
  ⟨a.r0.zipWith (· + ·) b.r0, a.r1.zipWith (· + ·) b.r1, a.r2.zipWith (· + ·) b.r2,
    a.r3.zipWith (· + ·) b.r3⟩

end Square

/-- How many pairs of rounds make a block. -/
def doubleRounds : Nat := 6

/-- The block of keystream at a counter. -/
def block (key : Row × Row) (counter : Nat) : Square :=
  let start : Square := ⟨⟨0x61707865, 0x3320646e, 0x79622d32, 0x6b206574⟩, key.1, key.2,
    ⟨counter.toUInt32, (counter / Nat.pow 2 32).toUInt32, 0, 0⟩⟩
  (Nat.repeat Square.doubleRound doubleRounds start).add start

-- ================================================================ seeding

/-- The next state of the generator that spreads a seed over a key. -/
def spread (state : UInt64) : UInt64 := state * 6364136223846793005 + 11634580027462260723

/-- The word that a state of that generator yields. -/
def yielded (state : UInt64) : UInt32 :=
  let mixed := (((state >>> 18) ^^^ state) >>> 27).toUInt32
  let turn := (state >>> 59).toUInt32
  (mixed >>> turn) ||| (mixed <<< ((32 - turn) % 32))

/-- Four words of key, and the state after them. -/
def keyRow (state : UInt64) : Row × UInt64 :=
  let s1 := spread state
  let s2 := spread s1
  let s3 := spread s2
  let s4 := spread s3
  (⟨yielded s1, yielded s2, yielded s3, yielded s4⟩, s4)

/-- The key of a seed. -/
def keyOf (seed : UInt64) : Row × Row :=
  let (first, state) := keyRow seed
  (first, (keyRow state).1)

/-- Words by position. -/
abbrev Stream := Nat → UInt32

/-- The stream of a seed. -/
def streamOf (seed : UInt64) : Stream := fun position =>
  (block (keyOf seed) (position / 16)).toList.getD (position % 16) 0

end Assay.Random
