/-
Random numbers below a bound, and random samples without replacement, drawn
from any stream of words. Every draw answers the position in the stream after
it.

Four ways to sample are used, each where it draws least: building the sample
up by single insertions, the same without regard to order and shuffled in the
end, shuffling the front of the whole range, and drawing from the whole range
until a number is new.

Two of the loops go on for as long as the stream makes them. Here they end
after a number of tries that no stream of random words can be expected to
reach (`patience`), so that every stream yields a sample.
-/
import Assay.Random.Stream

namespace Assay.Random

-- =========================================================== one number

/-- Tries after which a draw counts all the same. At least every other word is
accepted, so that many are rejected in a row with a chance of one in two to this
power. -/
def patience : Nat := 1000

/-- How many numbers so many words of the stream stand for. -/
def capacity (words : Nat) : Nat := Nat.pow 2 (32 * words)

/-- The number that so many words from `position` on stand for, the low word
first. -/
def wordAt (stream : Stream) : (words position : Nat) → Nat
  | 0, _ => 0
  | words + 1, position =>
    (stream position).toNat + Nat.pow 2 32 * wordAt stream words (position + 1)

/-- The largest low half of a product that leaves all numbers equally likely, for
a single draw: cheap to tell, though not the largest there is. -/
def zone (range : Nat) : Nat := range * Nat.pow 2 (31 - Nat.log2 range) - 1

/-- The same for many draws from one range, as large as it can be. -/
def exactZone (words range : Nat) : Nat :=
  capacity words - 1 - (capacity words - range) % range

/-- A number below `range`, drawn at `position`. What so many words stand for, times
the range, has the number as its high half; where the low half lies beyond
`bound`, the words are passed over. -/
def below (stream : Stream) (words bound range : Nat) : (tries position : Nat) → Nat × Nat
  | 0, position => (wordAt stream words position * range / capacity words, position + words)
  | tries + 1, position =>
    let product := wordAt stream words position * range
    if product % capacity words ≤ bound then (product / capacity words, position + words)
    else below stream words bound range tries (position + words)

/-- A number from `low` up to but not including `high`. -/
def draw (stream : Stream) (low high position : Nat) : Nat × Nat :=
  let range := high - low
  let (number, position) := below stream 1 (zone range) range patience position
  (low + number, position)

-- ============================================================== samples

/-- Puts `new` in front of the first `old`. -/
def insertBefore (new old : Nat) : List Nat → List Nat
  | [] => [new]
  | x :: xs => if x = old then new :: x :: xs else x :: insertBefore new old xs

/-- Adds a number up to `bound` to a sample of smaller ones. A number that the
sample has already makes room for `bound` itself. With `ordered`, the place is
random as well. -/
def extend (stream : Stream) (ordered : Bool) (sample : List Nat) (bound position : Nat) :
    List Nat × Nat :=
  let (number, position) := draw stream 0 (bound + 1) position
  if number ∈ sample then
    (if ordered then insertBefore bound number sample else sample ++ [bound], position)
  else (sample ++ [number], position)

/-- Extends a sample by `steps` numbers with growing bounds. -/
def extendMany (stream : Stream) (ordered : Bool) : (steps bound : Nat) → List Nat → Nat →
    List Nat × Nat
  | 0, _, sample, position => (sample, position)
  | steps + 1, bound, sample, position =>
    let (sample, position) := extend stream ordered sample bound position
    extendMany stream ordered steps (bound + 1) sample position

/-- Exchanges the numbers at two places. -/
def exchange (numbers : List Nat) (i j : Nat) : List Nat :=
  match numbers[i]?, numbers[j]? with
  | some a, some b => (numbers.set i b).set j a
  | _, _ => numbers

/-- Shuffles from the back down: each place takes a number from itself or one
in front of it. -/
def shuffleDown (stream : Stream) : (place : Nat) → List Nat → Nat → List Nat × Nat
  | 0, numbers, position => (numbers, position)
  | place + 1, numbers, position =>
    let (other, position) := draw stream 0 (place + 2) position
    shuffleDown stream place (exchange numbers (place + 1) other) position

/-- Shuffles `steps` places from `place` up: each takes a number from itself or
one behind it. -/
def shuffleUp (stream : Stream) (size : Nat) : (steps place : Nat) → List Nat → Nat →
    List Nat × Nat
  | 0, _, numbers, position => (numbers, position)
  | steps + 1, place, numbers, position =>
    let (other, position) := draw stream place size position
    shuffleUp stream size steps (place + 1) (exchange numbers place other) position

/-- A number below `size` that the sample does not have: one is drawn until it is
new. Each try finds a new one with a chance of one in `size` or more; should all
of them fail, the first that is missing is taken. -/
def fresh (stream : Stream) (words size : Nat) (sample : List Nat) :
    (tries position : Nat) → Nat × Nat
  | 0, position => (((List.range size).find? (· ∉ sample)).getD 0, position)
  | tries + 1, position =>
    let (number, position) := below stream words (exactZone words size) size patience position
    if number ∈ sample then fresh stream words size sample tries position
    else (number, position)

/-- Adds `steps` numbers to a sample, each drawn from the whole range. -/
def redraw (stream : Stream) (words size : Nat) : (steps : Nat) → List Nat → Nat →
    List Nat × Nat
  | 0, sample, position => (sample, position)
  | steps + 1, sample, position =>
    let (number, position) := fresh stream words size sample (patience * size) position
    redraw stream words size steps (sample ++ [number]) position

-- ======================================================= which way to take

/-- The ways to sample. -/
inductive Way where
  /-- Built up by insertions. -/
  | built
  /-- The front of the range, shuffled. -/
  | front
  /-- Drawn from the range in numbers of so many words until each is new. -/
  | redrawn (words : Nat)
deriving DecidableEq

/-- A number in the precision in which the ways are compared: 24 binary digits, and
the even one of two that are equally near. -/
def single (n : Nat) : Nat :=
  let unit := Nat.pow 2 (Nat.log2 n - 23)
  let digits := n / unit
  let rest := n % unit
  if unit < 2 * rest || (unit = 2 * rest && digits % 2 = 1) then (digits + 1) * unit
  else digits * unit

/-- Ranges from this size on have other costs. -/
def largeSize : Nat := 500000

/-- Building a small sample up draws less than shuffling the front of the range:
the size is at least `(10 + 1.6 count) count`, or `(70 / 9 + 8 count / 45) count` in
a large range. -/
def isSparse (size count : Nat) : Bool :=
  decide (count < 12)
    || (if size < largeSize then decide ((100 + 16 * count) * count ≤ 10 * size)
      else decide ((350 + 8 * count) * count ≤ 45 * size))

/-- Shuffling the front of the range draws less than drawing again: the size is
below 270 times the count, or below 330 / 9 times it in a large range. That quotient
is 9611947 of `2 ^ 18`-th parts in single precision. -/
def isDense (size count : Nat) : Bool :=
  if size < largeSize then decide (size < 270 * count)
  else decide (single (Nat.pow 2 18 * size) < single (9611947 * single count))

/-- The way to sample `count` numbers below `size`. Beyond one word there is but
one. -/
def way (size count : Nat) : Way :=
  if capacity 1 ≤ size then .redrawn 2
  else if count < 163 then if isSparse size count then .built else .front
  else if isDense size count then .front
  else .redrawn 1

/-- Samples smaller than this are built up in order. -/
def orderedLimit : Nat := 50

/-- A sample of `count` different numbers below `size`, in random order. -/
def sample (stream : Stream) (size count : Nat) : List Nat :=
  match way size count with
  | .built =>
    let ordered := decide (count < orderedLimit)
    let (built, position) := extendMany stream ordered count (size - count) [] 0
    if ordered then built else (shuffleDown stream (count - 1) built position).1
  | .front => ((shuffleUp stream size count 0 (List.range size) 0).1).take count
  | .redrawn words => (redraw stream words size count [] 0).1

/-- At most `count` items of a list, chosen at random. -/
def choose {α : Type} (stream : Stream) (items : List α) (count : Nat) : List α :=
  (sample stream items.length (min count items.length)).filterMap (items[·]?)

end Assay.Random
