import StubNames.Toml.Blank
import StubNames.Toml.Datetime
import StubNames.Toml.Node
/-!
# Unquoted scalars

Booleans, numbers, dates and times are written without quotes. An unquoted scalar is all that
stands before the next mark, and it is read as one of these or as nothing. What has the form of
a number is a number: where it is out of range or has unsuitable digits it has no value, which
only matters to those who ask for it.
-/

namespace StubNames.Toml

open Decimal (Literal isHexDigit natOfDigits)

namespace Scalar

def isMark (c : Char) : Bool :=
  c == '=' || c == ',' || c == '[' || c == ']' || c == '\x7b' || c == '\x7d' || c == '#'
    || c == '\n' || c == '\r'

/-- Whether a scalar goes on after blanks: with anything but a mark, a point or a quote. -/
def goesOn (cs : List Char) : Bool :=
  match skipBlanks cs with
  | [] => false
  | c :: _ => !(isMark c || c == '.' || c == '"' || c == '\'')

/-- The unquoted scalar that a text begins with, and the rest. Blanks belong to it only between
its parts. -/
def split : List Char → List Char × List Char
  | [] => ([], [])
  | c :: rest =>
    if isMark c || (isBlank c && !goesOn rest) then ([], c :: rest)
    else (c :: (split rest).1, (split rest).2)

/-- Removes the underscores of a number, each of which stands between two digits; `previous` holds
after a digit. -/
def ungroup (isDigit : Char → Bool) (previous : Bool) : List Char → Option (List Char)
  | [] => some []
  | '_' :: c :: rest =>
    if previous && isDigit c then (ungroup isDigit true rest).map fun cs => c :: cs else none
  | c :: rest =>
    if c = '_' then none
    else (ungroup isDigit (isDigit c) rest).map fun cs => c :: cs

/-- Whole numbers keep to 64 bits with a sign. -/
def isInRange (n : Int) : Bool :=
  -9223372036854775808 ≤ n && n ≤ 9223372036854775807

def ofDigits (base : Nat) (isDigit : Char → Bool) (negative : Bool) (cs : List Char) : Scalar :=
  let n : Int := natOfDigits base cs
  let n := if negative then -n else n
  if !cs.isEmpty && cs.all isDigit && isInRange n then .integer n else .valueless

/-- The number of a literal, which must not exceed the greatest binary number. -/
def ofLiteral (l : Literal) : Scalar :=
  match l.toBinary64? with
  | some x => .real x
  | none => .valueless

def based? (base : Nat) (isDigit : Char → Bool) (cs : List Char) : Option Scalar :=
  if cs.all fun c => isDigit c || c == '_' then
    (ungroup isDigit false cs).map (ofDigits base isDigit false)
  else none

def hasLeadingZero : List Char → Bool
  | '0' :: c :: _ => c.isDigit || c == '_'
  | _ => false

def isFractionMark (c : Char) : Bool :=
  c == '.' || c == 'e' || c == 'E'

/-- A number in base ten, after its sign if it has one. A whole number with underscores may have
any digits, but a value only with digits of its base. -/
def decimal? (negative : Bool) (cs : List Char) : Option Scalar :=
  let rest := cs.dropWhile Char.isDigit
  if cs.isEmpty || hasLeadingZero cs then none
  else if rest.any isFractionMark then do
    return ofLiteral (← Literal.readUnsigned? negative (← ungroup Char.isDigit false cs))
  else if rest.isEmpty || (rest.head? == some '_' && !rest.contains ' ') then
    (ungroup isHexDigit false cs).map (ofDigits 10 Char.isDigit negative)
  else none

def number? : List Char → Option Scalar
  | '0' :: 'x' :: rest => based? 16 isHexDigit rest
  | '0' :: 'o' :: rest => based? 8 (fun c => '0' ≤ c && c ≤ '7') rest
  | '0' :: 'b' :: rest => based? 2 (fun c => c == '0' || c == '1') rest
  | cs =>
    match Literal.splitSign cs with
    | (negative, ['i', 'n', 'f']) => some (.real (.infinite negative))
    | (_, ['n', 'a', 'n']) => some (.real .nan)
    | (negative, digits) => decimal? negative digits

def classify? (cs : List Char) : Option Scalar :=
  if cs = ['t', 'r', 'u', 'e'] then some (.boolean true)
  else if cs = ['f', 'a', 'l', 's', 'e'] then some (.boolean false)
  else if Datetime.accepts cs then some .datetime
  else number? cs

def unquoted? (cs : List Char) : Option (Scalar × List Char) :=
  let (word, rest) := split cs
  (classify? word).map fun s => (s, rest)

end Scalar

end StubNames.Toml
