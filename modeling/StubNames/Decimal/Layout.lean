import StubNames.Decimal.Shortest
/-!
# Layout of decimal numbers

How a format writes a binary number with its shortest digits. Where the decimal point falls
decides between positional and scientific notation, within bounds that each format sets.
-/

namespace StubNames.Decimal

/-- Positional notation is used while the point falls after the `least` place and not past the
`greatest` one, counted from before the first digit; a missing bound never ends it. -/
structure Layout where
  least : Option Int
  greatest : Option Int
  tie : Tie

namespace Layout

/-- Every finite number is written positionally; of two equally near ones the greater. -/
def positional : Layout := ⟨none, none, .greater⟩

/-- Positional from `0.00001` to below `10 ^ 16`, scientific elsewhere; of two equally near ones
the one with an even last digit. -/
def compact : Layout := ⟨some (-5), some 16, .even⟩

def isPositional (l : Layout) (point : Int) : Bool :=
  l.least.all (· < point) && l.greatest.all (point ≤ ·)

def digitsOf (n : Nat) : String :=
  String.ofList (Nat.toDigits 10 n)

def zeros (n : Nat) : String :=
  String.ofList (List.replicate n '0')

/-- The digits with the point after `point` of them; a whole number ends with `.0`. -/
def writePositional (digits : String) (point : Int) : String :=
  if point ≤ 0 then "0." ++ zeros (-point).toNat ++ digits
  else if digits.length ≤ point.toNat then
    digits ++ zeros (point.toNat - digits.length) ++ ".0"
  else
    let cs := digits.toList
    String.ofList (cs.take point.toNat) ++ "." ++ String.ofList (cs.drop point.toNat)

/-- One digit before the point, and no point if there is no other; the exponent has a sign. -/
def writeScientific (digits : String) (point : Int) : String :=
  let cs := digits.toList
  let fraction := cs.drop 1
  String.ofList (cs.take 1) ++ (if fraction.isEmpty then "" else "." ++ String.ofList fraction)
    ++ (if 0 < point then "e+" else "e") ++ toString (point - 1)

def writeMagnitude (l : Layout) (m : Magnitude) : String :=
  if m.significand = 0 then "0.0"
  else
    let s := shortest l.tie m
    let digits := digitsOf s.digits
    let point : Int := digits.length + s.exponent
    if l.isPositional point then writePositional digits point else writeScientific digits point

def sign (negative : Bool) : String :=
  if negative then "-" else ""

def write (l : Layout) : Binary64 → String
  | .finite negative m => sign negative ++ l.writeMagnitude m
  | .infinite negative => sign negative ++ "inf"
  | .nan => "NaN"

end Layout

end StubNames.Decimal
