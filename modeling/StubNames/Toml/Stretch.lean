import StubNames.Text.Span
/-!
# Stretches of a text

Where something stands in a text, in bytes counted from the end of the text. Reading shortens
what is left of a text, so both ends of a stretch are sizes of what was left.
-/

namespace StubNames.Toml

def byteSize (cs : List Char) : Nat :=
  cs.foldr (fun c size => c.utf8Size + size) 0

structure Stretch where
  /-- Bytes from the beginning of the stretch to the end of the text. -/
  left : Nat
  /-- Bytes from the end of the stretch to the end of the text. -/
  right : Nat
  deriving DecidableEq, Repr

namespace Stretch

def between (before after : List Char) : Stretch :=
  ⟨byteSize before, byteSize after⟩

def toSpan (s : Stretch) (size : Nat) : Span :=
  ⟨size - s.left, s.left - s.right⟩

end Stretch

end StubNames.Toml
