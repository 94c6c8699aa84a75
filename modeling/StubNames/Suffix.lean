import StubNames.Identifier
/-!
# Suffixes

A suffix is text that may be appended to an identifier: ASCII letters, digits and underscores,
possibly none at all. The check of a literal reads bytes, the check of any other text reads
characters; both admit the same texts because a character outside ASCII has no ASCII byte.
-/

namespace StubNames

structure Suffix where
  text : String
  isWord : ∀ c ∈ text.toList, isWordChar c = true
  deriving DecidableEq, Repr

def isWordByte (b : UInt8) : Bool :=
  (48 ≤ b && b ≤ 57) || (65 ≤ b && b ≤ 90) || (97 ≤ b && b ≤ 122) || b == 95

namespace Suffix

/-- Checks a text character by character; the error names the first bad one. -/
def parse (s : String) : Except IdentifierError Suffix :=
  match h : firstForeign isWordChar s.toList with
  | none => .ok ⟨s, firstForeign_eq_none h⟩
  | some p => .error (.invalidChar p.1 p.2)

private theorem isWordByte_ofNat {n : Nat} (hn : n < 256) :
    isWordByte (UInt8.ofNat n) = true ↔
      (48 ≤ n ∧ n ≤ 57) ∨ (65 ≤ n ∧ n ≤ 90) ∨ (97 ≤ n ∧ n ≤ 122) ∨ n = 95 := by
  have : n % 256 = n := Nat.mod_eq_of_lt hn
  simp [isWordByte, UInt8.le_iff_toNat_le, ← UInt8.toNat_inj, this, or_assoc]

private theorem isWordChar_iff {c : Char} :
    isWordChar c = true ↔
      (48 ≤ c.toNat ∧ c.toNat ≤ 57) ∨ (65 ≤ c.toNat ∧ c.toNat ≤ 90) ∨
        (97 ≤ c.toNat ∧ c.toNat ≤ 122) ∨ c.toNat = 95 := by
  have : c = '_' ↔ c.toNat = 95 := by rw [← Char.toNat_inj]; exact Iff.rfl
  change (((decide (c.val ≥ 65 ∧ c.val ≤ 90) ||
    (decide (c.val ≥ 97) && decide (c.val ≤ 122))) ||
      (decide (c.val ≥ 48) && decide (c.val ≤ 57))) || c == '_') = true ↔ _
  simp only [Bool.or_eq_true, Bool.and_eq_true, decide_eq_true_eq, beq_iff_eq, this,
    UInt32.le_iff_toNat_le, ge_iff_le]
  change ((((65 ≤ c.toNat ∧ c.toNat ≤ 90) ∨ (97 ≤ c.toNat ∧ c.toNat ≤ 122)) ∨
    (48 ≤ c.toNat ∧ c.toNat ≤ 57)) ∨ c.toNat = 95) ↔ _
  omega

theorem all_isWordByte_encodeChar (c : Char) :
    (String.utf8EncodeChar c).all isWordByte = isWordChar c := by
  have hc : c.val.toNat = c.toNat := rfl
  have hlt : c.toNat < 1114112 := by
    have := c.valid
    simp only [UInt32.isValidChar, Nat.isValidChar, hc] at this
    omega
  rw [Bool.eq_iff_iff, isWordChar_iff]
  simp only [String.utf8EncodeChar, hc]
  split
  · rw [List.all_cons, List.all_nil, Bool.and_true, isWordByte_ofNat (by omega)]
  · split
    · rw [List.all_cons, Bool.and_eq_true, isWordByte_ofNat (by omega)]
      omega
    · split
      · rw [List.all_cons, Bool.and_eq_true, isWordByte_ofNat (by omega)]
        omega
      · rw [List.all_cons, Bool.and_eq_true, isWordByte_ofNat (by omega)]
        omega

/-- Reading bytes and reading characters admit the same texts. -/
theorem all_isWordByte (s : String) :
    s.toUTF8.data.toList.all isWordByte = s.toList.all isWordChar := by
  have : s.toUTF8.data.toList = s.toList.flatMap String.utf8EncodeChar := by
    rw [String.toUTF8_eq_toByteArray, ← @String.ofList_toList s, String.toByteArray_ofList,
      String.ofList_toList, List.utf8Encode, List.data_toByteArray]
  rw [this, List.all_flatMap]
  exact congrArg (s.toList.all ·) (funext all_isWordByte_encodeChar)

inductive LiteralError where
  | invalidCharacter
  deriving DecidableEq, Repr

def LiteralError.message : LiteralError → String
  | .invalidCharacter => "invalid character in suffix"

/-- Checks a literal byte by byte. -/
def ofLiteral (s : String) : Except LiteralError Suffix :=
  if h : s.toUTF8.data.toList.all isWordByte = true then
    .ok ⟨s, List.all_eq_true.1 (all_isWordByte s ▸ h)⟩
  else
    .error .invalidCharacter

def isEmpty (s : Suffix) : Bool :=
  s.text.isEmpty

instance : Inhabited Suffix where
  default := ⟨"", by simp⟩

end Suffix

/-- `Greeter` with the suffix `Server` is `GreeterServer`. -/
def Identifier.withSuffix (name : Identifier) (suffix : Suffix) : Identifier :=
  ⟨name.text ++ suffix.text⟩

end StubNames
