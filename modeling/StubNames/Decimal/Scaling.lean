import StubNames.Decimal.Literal
/-!
# Reading by scaling

A quick way to read a decimal with a fraction or an exponent. The leading digits, as many as fit
64 bits, are rounded to a binary number, which is then multiplied or divided by a rounded power of
ten and rounded again. The result is the nearest number or a close one.
-/

namespace StubNames.Decimal

namespace Magnitude

def multiply (m n : Magnitude) : Option Magnitude :=
  let exponent := m.exponent + n.exponent
  ofFraction (m.significand * n.significand * Nat.pow 2 exponent.toNat)
    (Nat.pow 2 (-exponent).toNat)

def divide (m n : Magnitude) : Option Magnitude :=
  let exponent := m.exponent - n.exponent
  ofFraction (m.significand * Nat.pow 2 exponent.toNat)
    (n.significand * Nat.pow 2 (-exponent).toNat)

def powerOfTen (n : Nat) : Option Magnitude :=
  ofDecimal 1 n

def greatestPower : Nat := 308

/-- Multiplies or divides by a power of ten, the latter in steps that powers of ten allow. -/
def scale (m : Magnitude) (exponent : Int) : Option Magnitude :=
  if m.significand = 0 then some m
  else if 0 ≤ exponent then do
    m.multiply (← powerOfTen exponent.toNat)
  else if -greatestPower ≤ exponent then do
    m.divide (← powerOfTen (-exponent).toNat)
  else do
    scale (← m.divide (← powerOfTen greatestPower)) (exponent + greatestPower)
termination_by (-exponent).toNat
decreasing_by simp only [greatestPower] at *; omega

end Magnitude

namespace Literal

/-- Appends digits to a number as long as it fits 64 bits, and returns the digits left over. -/
def appendFitting (n : Nat) : List Char → Nat × List Char
  | [] => (n, [])
  | c :: cs =>
    if 10 * n + digitValue c < Nat.pow 2 64 then appendFitting (10 * n + digitValue c) cs
    else (n, c :: cs)

/-- The value by scaling. Digits of the whole part that are left over count as zeros, those of
the fraction not at all. -/
def scaled? (l : Literal) : Option Binary64 := do
  let fraction := l.fraction.getD []
  let (n, zeros) := appendFitting 0 l.whole
  let (n, ignored) := appendFitting n fraction
  let exponent : Int := l.exponent.getD 0 + zeros.length - (fraction.length - ignored.length)
  let m ← (← Magnitude.ofDecimal n 0).scale exponent
  return .finite l.negative m

end Literal

end StubNames.Decimal
