import JvmTrace.Decimal.Binary

/-!
# Shortest decimals — the fewest digits that read back

A binary number `v` owns an interval of reals: those that are nearer to `v` than to its neighbours.
Its *shortest decimal* is the decimal with the fewest digits inside that interval, and of two such
decimals the one nearer to `v`. Everything is done in exact `Nat` arithmetic.

The search goes through finer and finer grids. The grid of `d` digits consists of the multiples of
`10^(k - d)`, where `10^k` is the least power of ten above `v`; of each grid only the two points next
to `v` are tried, because if any point of a grid lies in the interval, one of these two does. The
grid of no digits has only `10^k` to offer, and it comes first: a power of ten inside the interval is
always the answer.

The ends of the interval belong to it exactly when the significand is even, which is when reading a
decimal rounds a tie to it. A value halfway between two points of the grid goes to the upper one.
-/

set_option autoImplicit false

namespace JvmTrace.Decimal

/-- A decimal: `digits · 10^exponent`. -/
structure Numeral where
  /-- The digits, as a number. -/
  digits : Nat
  /-- The power of ten that the last digit counts. -/
  exponent : Int
  deriving DecidableEq

/-- A value and the interval it owns, as fractions over one denominator. -/
structure Interval where
  low : Nat
  value : Nat
  high : Nat
  /-- What all three are divided by. -/
  denominator : Nat
  /-- Whether the ends belong to the interval. -/
  closed : Bool

namespace Interval

/-- The interval of `significand · 2^exponent`. In quarters of a unit in the last place the value is
`4 · significand`, half the gap to a neighbour is two quarters, and half of a halved gap is one. -/
def ofBinary (significand : Nat) (exponent : Int) (lowGapHalved : Bool) : Interval :=
  let e := exponent - 2
  let scale := Nat.pow 2 e.toNat
  { low := (4 * significand - if lowGapHalved then 1 else 2) * scale
    value := 4 * significand * scale
    high := (4 * significand + 2) * scale
    denominator := Nat.pow 2 (-e).toNat
    closed := significand % 2 = 0 }

/-- Multiplies value and ends by `10^-e`. -/
def scaleDown (i : Interval) (e : Int) : Interval :=
  let up := Nat.pow 10 (-e).toNat
  { i with
    low := i.low * up
    value := i.value * up
    high := i.high * up
    denominator := i.denominator * Nat.pow 10 e.toNat }

/-- Whether the whole number `n`, which is not above the value, lies in the interval. -/
def reachesDown (i : Interval) (n : Nat) : Bool :=
  if i.closed then i.low ≤ n * i.denominator else i.low < n * i.denominator

/-- Whether the whole number `n`, which is not below the value, lies in the interval. -/
def reachesUp (i : Interval) (n : Nat) : Bool :=
  if i.closed then n * i.denominator ≤ i.high else n * i.denominator < i.high

/-- The whole number of the interval that is nearest to the value, if there is one. Halfway goes
up. -/
def nearestWhole (i : Interval) : Option Nat :=
  let below := i.value / i.denominator
  let above := below + 1
  let nearerBelow := 2 * (i.value % i.denominator) < i.denominator
  match i.reachesDown below, i.reachesUp above with
  | true, true => some (if nearerBelow then below else above)
  | true, false => some below
  | false, true => some above
  | false, false => none

end Interval

/-- How many decimal digits `n` has. -/
def digitCount (n : Nat) : Nat := (Nat.toDigits 10 n).length

/-- The `k` for which `10^(k-1) ≤ value < 10^k`. Below one, `10^t` is the least power of ten that
lifts the value to one or more, and then `k = 1 - t`. -/
def leadingExponent (i : Interval) : Int :=
  if i.denominator ≤ i.value then digitCount (i.value / i.denominator)
  else 1 - (digitCount ((i.denominator - 1) / i.value) : Int)

/-- More digits than any of the two formats ever needs. -/
def enoughDigits : Nat := 17

/-- The decimal of fewest digits in the interval, the nearest of those to the value. -/
def shortest (i : Interval) : Numeral :=
  let k := leadingExponent i
  let onGrid (d : Nat) : Option Numeral :=
    let e := k - d
    (i.scaleDown e).nearestWhole.map (⟨·, e⟩)
  ((List.range (enoughDigits + 1)).findSome? onGrid).getD ⟨0, 0⟩

/-! ## Text -/

/-- A decimal written out in full: never with an exponent, and with no point unless there are digits
behind it. -/
def Numeral.positional (x : Numeral) : List Char :=
  let digits := Nat.toDigits 10 x.digits
  if 0 ≤ x.exponent then digits ++ List.replicate x.exponent.toNat '0'
  else
    let places := (-x.exponent).toNat
    let padded := List.replicate (places + 1 - digits.length) '0' ++ digits
    let whole := padded.length - places
    padded.take whole ++ '.' :: padded.drop whole

/-- The text of a number: its shortest decimal in positional notation. Zero keeps its sign; what is
not a number has none. -/
def Datum.text : Datum → String
  | .nan => "NaN"
  | .infinite negative => if negative then "-inf" else "inf"
  | .finite negative significand exponent lowGapHalved =>
    let sign := if negative then "-" else ""
    if significand = 0 then sign ++ "0"
    else sign ++ String.ofList
      (shortest (Interval.ofBinary significand exponent lowGapHalved)).positional

/-- The text of a 32-bit float. -/
def singleText (bits : UInt32) : String := (Format.single.decode bits.toNat).text

/-- The text of a 64-bit float. -/
def doubleText (bits : UInt64) : String := (Format.double.decode bits.toNat).text

end JvmTrace.Decimal
