/-!
# Spans

Places in a text, in bytes of its UTF-8 form.
-/

namespace StubNames

structure Span where
  offset : Nat
  length : Nat
  deriving DecidableEq, Repr

end StubNames
