import StubNames.Suffix
import StubNames.Text.Quoted
import StubNames.Decimal.Layout
import StubNames.Decimal.Scaling
/-!
# Data as a reader meets it

The outline of a value of a data format: scalars with their values, containers by kind only.
A reader that expected something else reports what it found. Identifiers and suffixes are
written as text and read back under their own checks.
-/

namespace StubNames

inductive Datum where
  | null
  | boolean (value : Bool)
  | integer (value : Int)
  /-- A number with a fraction or an exponent, as its format writes it. -/
  | real (written : String)
  | text (value : String)
  | sequence
  | mapping
  deriving DecidableEq, Repr

namespace Datum

def describe : Datum → String
  | .null => "null"
  | .boolean b => s!"boolean `{b}`"
  | .integer n => s!"integer `{n}`"
  | .real w => s!"floating point `{w}`"
  | .text s => s!"string {Text.quoted s}"
  | .sequence => "sequence"
  | .mapping => "map"

end Datum

/-- The value of a number: a whole one that fits 64 bits, with or without a sign, is an integer,
and any other is read by scaling. Zero with a sign is not whole. -/
def Datum.ofLiteral (l : Decimal.Literal) : Datum :=
  let n := l.toInt
  if l.isWhole && (if l.negative then -9223372036854775808 ≤ n && n != 0
      else n ≤ 18446744073709551615) then
    .integer n
  else
    .real (Decimal.Layout.compact.write (l.scaled?.getD (.infinite l.negative)))

structure Mismatch where
  found : Datum
  expected : String
  deriving DecidableEq, Repr

def Mismatch.message (m : Mismatch) : String :=
  s!"invalid type: {m.found.describe}, expected {m.expected}"

inductive ReadError where
  | mismatch (m : Mismatch)
  | rejected (cause : IdentifierError)
  deriving DecidableEq, Repr

def ReadError.message : ReadError → String
  | .mismatch m => m.message
  | .rejected cause => cause.message

namespace Datum

def toText : Datum → Except Mismatch String
  | .text s => .ok s
  | found => .error ⟨found, "a string"⟩

def readText {α : Type} (check : String → Except IdentifierError α) (d : Datum) :
    Except ReadError α :=
  match d.toText with
  | .error m => .error (.mismatch m)
  | .ok s => (check s).mapError .rejected

end Datum

namespace Identifier

def toDatum (i : Identifier) : Datum :=
  .text i.text

def ofDatum : Datum → Except ReadError Identifier :=
  Datum.readText parseDotted

end Identifier

namespace Suffix

def toDatum (s : Suffix) : Datum :=
  .text s.text

def ofDatum : Datum → Except ReadError Suffix :=
  Datum.readText parse

end Suffix

end StubNames
