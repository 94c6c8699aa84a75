import StubNames.Decimal.Binary64
/-!
# Shortest decimals

The decimal with the fewest digits that reads back as a given binary number and, among those
with as few, the one nearest to it. The reals that read back form an interval around the
number, whose ends belong to it when the significand is even. Of two that are equally near a
format chooses by its own rule.
-/

namespace StubNames.Decimal

/-- `digits * 10 ^ exponent`. -/
structure Scientific where
  digits : Nat
  exponent : Int
  deriving DecidableEq, Repr

inductive Tie where
  | greater
  | even
  deriving DecidableEq, Repr

namespace Shortest

/-- The reals that round to a number, as fractions over one denominator. -/
structure Interval where
  low : Nat
  value : Nat
  high : Nat
  denominator : Nat
  closed : Bool

/-- The gap below a power of two is half the gap above it, except at the least exponent. -/
def interval (m : Magnitude) : Interval :=
  let below :=
    if m.significand = Nat.pow 2 52 && m.exponent != Magnitude.leastExponent then 1 else 2
  let unit := Nat.pow 2 m.exponent.toNat
  { low := (4 * m.significand - below) * unit
    value := 4 * m.significand * unit
    high := (4 * m.significand + 2) * unit
    denominator := 4 * Nat.pow 2 (-m.exponent).toNat
    closed := m.significand % 2 == 0 }

namespace Interval

def contains (i : Interval) (n : Nat) (k : Int) : Bool :=
  let point := n * Nat.pow 10 k.toNat * i.denominator
  let scale := Nat.pow 10 (-k).toNat
  if i.closed then i.low * scale ≤ point && point ≤ i.high * scale
  else i.low * scale < point && point < i.high * scale

/-- The value in units of `10 ^ k`, rounded down, with twice what is left over and the
divisor that it is measured in. -/
def divide (i : Interval) (k : Int) : Nat × Nat × Nat :=
  let num := i.value * Nat.pow 10 (-k).toNat
  let den := i.denominator * Nat.pow 10 k.toNat
  (num / den, 2 * (num % den), den)

/-- The point of the grid `10 ^ k` that reads back and is nearest. -/
def onGrid? (i : Interval) (tie : Tie) (k : Int) : Option Scientific :=
  let (low, rest, den) := i.divide k
  let isLow := rest < den || (rest == den && tie == .even && low % 2 == 0)
  match i.contains low k, i.contains (low + 1) k with
  | true, true => some ⟨if isLow then low else low + 1, k⟩
  | true, false => some ⟨low, k⟩
  | false, true => some ⟨low + 1, k⟩
  | false, false => none

/-- The power of ten of the leading digit, found by counting digits of numerator and
denominator. -/
def leadingPower (i : Interval) : Int :=
  let guess : Int :=
    (Nat.toDigits 10 i.value).length - (Nat.toDigits 10 i.denominator).length
  if i.denominator * Nat.pow 10 guess.toNat ≤ i.value * Nat.pow 10 (-guess).toNat then guess
  else guess - 1

end Interval

/-- Tries grids from the coarsest on; seventeen digits always suffice. -/
def search (tie : Tie) (i : Interval) (lead : Int) (digits : Nat) : Nat → Scientific
  | 0 => ⟨(i.divide (lead - digits)).1, lead - digits⟩
  | more + 1 =>
    match i.onGrid? tie (lead - digits) with
    | some s => s
    | none => search tie i lead (digits + 1) more

/-- Drops the zeros at the end of the digits, of which there are at most `fuel`. -/
def trim (s : Scientific) : Nat → Scientific
  | 0 => s
  | fuel + 1 =>
    if s.digits % 10 = 0 && s.digits != 0 then trim ⟨s.digits / 10, s.exponent + 1⟩ fuel else s

end Shortest

/-- The shortest decimal of a number; zero is `0 * 10 ^ 0`. -/
def shortest (tie : Tie) (m : Magnitude) : Scientific :=
  if m.significand = 0 then ⟨0, 0⟩
  else
    let i := Shortest.interval m
    Shortest.trim (Shortest.search tie i i.leadingPower 0 17) 18

end StubNames.Decimal
