import StubNames.Text.Span
/-!
# Searching a text

The first occurrence of a pattern in a text, at an offset in bytes.
-/

namespace StubNames.Text

/-- The first occurrence at or after `offset`, where the given characters begin. -/
def findFrom? (pattern : List Char) (offset : Nat) : List Char → Option Nat
  | [] => if pattern.isEmpty then some offset else none
  | c :: rest =>
    if pattern.isPrefixOf (c :: rest) then some offset
    else findFrom? pattern (offset + c.utf8Size) rest

/-- The place of the first occurrence of a value between double quotes, without the quotes. -/
def findQuoted? (value text : String) : Option Span :=
  (findFrom? (['"'] ++ value.toList ++ ['"']) 0 text.toList).map fun offset =>
    ⟨offset + 1, value.utf8ByteSize⟩

end StubNames.Text
