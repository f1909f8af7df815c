/-!
# Binary floating point — what the bits of a number mean

A float constant is kept as its bits. This file says what number they stand for: the two interchange
formats differ only in how many bits the exponent and the fraction have, so they share one decoder.

A finite number is `m · 2^q` with `m : Nat` and `q : Int`, which is exact; nothing here rounds.
-/

set_option autoImplicit false

namespace JvmTrace.Decimal

/-- A binary interchange format: one sign bit, then an exponent, then a fraction. -/
structure Format where
  /-- Bits of the exponent. -/
  exponentBits : Nat
  /-- Bits of the fraction, without the leading one that is not stored. -/
  fractionBits : Nat

/-- The 32-bit format. -/
def Format.single : Format := ⟨8, 23⟩

/-- The 64-bit format. -/
def Format.double : Format := ⟨11, 52⟩

namespace Format

/-- The exponent field of infinities and of what is not a number. -/
def topExponent (f : Format) : Nat := Nat.pow 2 f.exponentBits - 1

/-- The exponent of the last fraction bit when the exponent field is zero or one. -/
def leastExponent (f : Format) : Int :=
  2 - (Nat.pow 2 (f.exponentBits - 1) + f.fractionBits : Nat)

end Format

/-- The number that some bits stand for. -/
inductive Datum where
  | nan
  | infinite (negative : Bool)
  /-- `significand · 2^exponent`. The neighbour towards zero is only half as far away as the other
  one when `lowGapHalved` holds: the significand is then the least of its binade. -/
  | finite (negative : Bool) (significand : Nat) (exponent : Int) (lowGapHalved : Bool)
  deriving DecidableEq

/-- Reads `bits` as a number of the format. -/
def Format.decode (f : Format) (bits : Nat) : Datum :=
  let fraction := bits % Nat.pow 2 f.fractionBits
  let exponent := bits / Nat.pow 2 f.fractionBits % Nat.pow 2 f.exponentBits
  let negative := bits / Nat.pow 2 (f.fractionBits + f.exponentBits) % 2 = 1
  if exponent = f.topExponent then
    if fraction = 0 then .infinite negative else .nan
  else if exponent = 0 then
    .finite negative fraction f.leastExponent false
  else
    .finite negative (Nat.pow 2 f.fractionBits + fraction) (f.leastExponent + (exponent - 1 : Nat))
      (fraction = 0 ∧ 1 < exponent)

/-- Whether `bits` are those of a zero of either sign. -/
def Format.isZero (f : Format) (bits : Nat) : Bool :=
  match f.decode bits with
  | .finite _ 0 _ _ => true
  | _ => false

/-- Equality of numbers, as opposed to equality of bits: the two zeros are equal, and what is not a
number differs from everything, itself included. -/
def Format.sameNumber (f : Format) (a b : Nat) : Bool :=
  match f.decode a, f.decode b with
  | .nan, _ => false
  | _, .nan => false
  | _, _ => a == b || (f.isZero a && f.isZero b)

end JvmTrace.Decimal
