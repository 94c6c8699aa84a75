/-!
# Identifiers

An identifier is a resolved name. Two grammars read one: the plain grammar of target
identifiers, and the dotted grammar, which also takes `.` after the first character.
The check reports the first fault of a text, and composing identifiers is concatenation.
-/

namespace StubNames

def isWordChar (c : Char) : Bool :=
  c.isAlphanum || c == '_'

/-- The first character outside an alphabet, with its position. -/
def firstForeign (allowed : Char → Bool) (cs : List Char) : Option (Char × Nat) :=
  cs.zipIdx.find? fun p => !allowed p.1

theorem firstForeign_eq_none {allowed : Char → Bool} {cs : List Char}
    (h : firstForeign allowed cs = none) : ∀ c ∈ cs, allowed c = true := by
  intro c hc
  obtain ⟨i, hi, rfl⟩ := List.mem_iff_getElem.1 hc
  have mem : (cs[i], 0 + i) ∈ cs.zipIdx := List.mk_add_mem_zipIdx_iff_getElem?.2 (by simp [hi])
  simpa using List.find?_eq_none.1 h _ mem

inductive IdentifierError where
  | empty
  | invalidStart (ch : Char)
  | invalidChar (ch : Char) (index : Nat)
  deriving DecidableEq, Repr

namespace IdentifierError

def message : IdentifierError → String
  | .empty => "identifier must not be empty"
  | .invalidStart ch => s!"identifier cannot start with '{ch}'"
  | .invalidChar ch index => s!"invalid character '{ch}' at position {index}"

end IdentifierError

structure Identifier where
  text : String
  deriving DecidableEq, Repr

namespace Identifier

inductive Grammar where
  | plain
  | dotted
  deriving DecidableEq, Repr

namespace Grammar

def isStart (c : Char) : Bool :=
  c.isAlpha || c == '_'

def continues (g : Grammar) (c : Char) : Bool :=
  isWordChar c || (g == .dotted && c == '.')

/-- The first fault of a text, positions counting characters. -/
def fault? (g : Grammar) (s : String) : Option IdentifierError :=
  match s.toList with
  | [] => some .empty
  | c :: cs =>
    if isStart c then
      (firstForeign g.continues cs).map fun p => .invalidChar p.1 (p.2 + 1)
    else
      some (.invalidStart c)

def read (g : Grammar) (s : String) : Except IdentifierError Identifier :=
  match g.fault? s with
  | none => .ok ⟨s⟩
  | some e => .error e

end Grammar

def parse (s : String) : Except IdentifierError Identifier :=
  Grammar.plain.read s

/-- Accepts every text that resolving a name can produce. -/
def parseDotted (s : String) : Except IdentifierError Identifier :=
  Grammar.dotted.read s

def isPlain (s : String) : Bool :=
  (Grammar.plain.fault? s).isNone

/-- `Outer` joined with `Inner` is `Outer_Inner`. -/
def join (outer inner : Identifier) : Identifier :=
  ⟨outer.text ++ "_" ++ inner.text⟩

/-- Identifiers are ordered as their texts are, character by character. -/
instance : Ord Identifier where
  compare a b := compare a.text b.text

end Identifier

end StubNames
