/-!
# Binary floating point

Numbers of the binary64 format in exact arithmetic: a finite one is a significand of at most 53
bits times a power of two. A decimal is rounded to the nearest such number, a tie going to the
even significand.
-/

namespace StubNames.Decimal

/-- `significand * 2 ^ exponent`, with 53 bits unless the exponent is the least one. -/
structure Magnitude where
  significand : Nat
  exponent : Int
  deriving DecidableEq, Repr

namespace Magnitude

def leastExponent : Int := -1074

def greatestExponent : Int := 971

/-- The nearest integer to `num / den`, a tie going to the even one. -/
def nearest (num den : Nat) : Nat :=
  let low := num / den
  let rest := 2 * (num % den)
  if rest < den then low
  else if den < rest then low + 1
  else low + low % 2

/-- `num / den` in units of `2 ^ exponent`, as a fraction. -/
def scaled (num den : Nat) (exponent : Int) : Nat × Nat :=
  (num * Nat.pow 2 (-exponent).toNat, den * Nat.pow 2 exponent.toNat)

/-- The exponent in whose units `num / den` has 53 bits, or the least exponent. -/
def unitExponent (num den : Nat) : Int :=
  let guess : Int := (num.log2 : Int) - den.log2 - 53
  let (n, d) := scaled num den guess
  max leastExponent (if n / d < Nat.pow 2 53 then guess else guess + 1)

/-- The number nearest to `num / den`; none if that is past the greatest one. -/
def ofFraction (num den : Nat) : Option Magnitude :=
  let exponent := unitExponent num den
  let (n, d) := scaled num den exponent
  let significand := nearest n d
  let m : Magnitude :=
    if significand = Nat.pow 2 53 then ⟨Nat.pow 2 52, exponent + 1⟩ else ⟨significand, exponent⟩
  if m.exponent ≤ greatestExponent then some m else none

/-- The number nearest to `digits * 10 ^ exponent`. Exponents far out of range are decided by
size alone, so no huge power is computed. -/
def ofDecimal (digits : Nat) (exponent : Int) : Option Magnitude :=
  let size : Int := (Nat.toDigits 10 digits).length + exponent
  if digits = 0 || size < -330 then some ⟨0, leastExponent⟩
  else if 310 < size then none
  else ofFraction (digits * Nat.pow 10 exponent.toNat) (Nat.pow 10 (-exponent).toNat)

end Magnitude

inductive Binary64 where
  | finite (negative : Bool) (magnitude : Magnitude)
  | infinite (negative : Bool)
  | nan
  deriving DecidableEq, Repr

end StubNames.Decimal
