import StubNames.Proofs.Except
import StubNames.Proofs.Identifier.Fault
/-!
# Two checks of a suffix

The check of a literal looks at the bytes of its UTF-8 form, and the check of any other text at its
characters.  They admit the same texts and make the same suffix of them.  Only the check of
characters says what is wrong: it names the first character that does not belong to a word.
-/

namespace StubNames.Suffix

variable {s : String} {x : Suffix} {e : IdentifierError}

theorem ofLiteral_eq_ok_iff : ofLiteral s = .ok x ↔ s = x.text := by
  constructor
  · intro h
    unfold ofLiteral at h
    split at h
    · cases h
      rfl
    · cases h
  · rintro rfl
    have hword : x.text.toUTF8.data.toList.all isWordByte = true := by
      rw [all_isWordByte]
      exact List.all_eq_true.2 x.isWord
    exact dif_pos hword

theorem ofLiteral_eq_ok_iff_parse : ofLiteral s = .ok x ↔ parse s = .ok x := by
  rw [ofLiteral_eq_ok_iff, parse_eq_ok_iff]

theorem parse_eq_error_iff : parse s = .error e ↔
    ∃ ch index, e = .invalidChar ch index ∧ FirstOutside InWord s.toList ch index := by
  have hforeign : ∀ ch index, firstForeign isWordChar s.toList = some (ch, index) ↔
      FirstOutside InWord s.toList ch index := by
    intro ch index
    exact firstForeign_eq_some_iff fun c => isWordChar_eq_true_iff
  simp only [← hforeign]
  unfold parse
  split
  · next hnone => simp [hnone]
  · next p hsome =>
      rw [hsome, Except.error.injEq]
      constructor
      · rintro rfl
        exact ⟨p.1, p.2, rfl, rfl⟩
      · rintro ⟨ch, index, rfl, hp⟩
        obtain rfl := Option.some.inj hp
        rfl

/-- A literal is refused exactly if the same text is refused when it is not a literal, and otherwise
both are the suffix of that text.  What is reported of a text is its first character that does not
belong to a word. -/
theorem ofLiteral_exact (s : String) :
    ((∃ e, ofLiteral s = .error e) ↔ ∃ e, parse s = .error e) ∧
    (∀ x, ofLiteral s = .ok x ↔ parse s = .ok x) ∧
    (∀ x, parse s = .ok x ↔ x.text = s) ∧
    ∀ e, parse s = .error e ↔
      ∃ ch index, e = .invalidChar ch index ∧ FirstOutside InWord s.toList ch index := by
  refine ⟨?_, fun x => ofLiteral_eq_ok_iff_parse, fun x => ?_, fun e => parse_eq_error_iff⟩
  · simp only [exists_eq_error_iff, ne_eq, ofLiteral_eq_ok_iff_parse]
  · rw [parse_eq_ok_iff, eq_comm]

end StubNames.Suffix
