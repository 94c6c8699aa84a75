import StubNames.Decimal.Binary64
/-!
# Decimal literals

Signed decimal numbers as they are written, with an optional fraction and an optional exponent.
Zeros in front of the whole part do not change its value.
-/

namespace StubNames.Decimal

def isHexDigit (c : Char) : Bool :=
  c.isDigit || ('a' ≤ c && c ≤ 'f') || ('A' ≤ c && c ≤ 'F')

def digitValue (c : Char) : Nat :=
  if c.isDigit then c.toNat - '0'.toNat
  else if c.isUpper then c.toNat - 'A'.toNat + 10
  else c.toNat - 'a'.toNat + 10

def natOfDigits (base : Nat) (cs : List Char) : Nat :=
  cs.foldl (fun n c => base * n + digitValue c) 0

structure Literal where
  negative : Bool
  whole : List Char
  fraction : Option (List Char)
  exponent : Option Int
  deriving DecidableEq, Repr

namespace Literal

def splitSign : List Char → Bool × List Char
  | '-' :: rest => (true, rest)
  | '+' :: rest => (false, rest)
  | cs => (false, cs)

/-- At least one digit, and the rest. -/
def splitDigits (cs : List Char) : Option (List Char × List Char) :=
  match cs.takeWhile Char.isDigit with
  | [] => none
  | digits => some (digits, cs.dropWhile Char.isDigit)

def readFraction : List Char → Option (Option (List Char) × List Char)
  | '.' :: rest => (splitDigits rest).map fun p => (some p.1, p.2)
  | cs => some (none, cs)

/-- An exponent ends the literal. -/
def readExponent : List Char → Option (Option Int)
  | [] => some none
  | c :: rest =>
    if c = 'e' || c = 'E' then
      let (negative, rest) := splitSign rest
      match splitDigits rest with
      | some (digits, []) =>
        let n : Int := natOfDigits 10 digits
        some (some (if negative then -n else n))
      | _ => none
    else none

def readUnsigned? (negative : Bool) (cs : List Char) : Option Literal := do
  let (whole, cs) ← splitDigits cs
  let (fraction, cs) ← readFraction cs
  let exponent ← readExponent cs
  return { negative, whole, fraction, exponent }

def read? (cs : List Char) : Option Literal :=
  let (negative, cs) := splitSign cs
  readUnsigned? negative cs

def isWhole (l : Literal) : Bool :=
  l.fraction.isNone && l.exponent.isNone

def toInt (l : Literal) : Int :=
  let n : Int := natOfDigits 10 l.whole
  if l.negative then -n else n

/-- The nearest binary number; none if it is out of range. -/
def toBinary64? (l : Literal) : Option Binary64 :=
  let fraction := l.fraction.getD []
  let scale := l.exponent.getD 0 - fraction.length
  (Magnitude.ofDecimal (natOfDigits 10 (l.whole ++ fraction)) scale).map (.finite l.negative)

end Literal

end StubNames.Decimal
