import StubNames.Proofs.Casing.Pointwise
/-!
# The alphabet of converted names

A converted name starts with a letter, and all its characters are word characters or dots.  The
dots are those of the declared name: no other character becomes one, and none of them is lost.
Proofs about the characters of a converted name split on `Camel` and never on the rule itself.
-/

namespace StubNames

/-! ## One character -/

/-- All that a character of a declared name can become. -/
inductive Camel : Char → List Char → Prop where
  | dropped : Camel '_' []
  | underscore : Camel '_' ['_']
  | letter {c : Char} (hc : c.isAlpha = true) : Camel c [c]
  | capital {c : Char} (hc : c.isLower = true) : Camel c [c.toUpper]
  | digit {c : Char} (hc : c.isDigit = true) : Camel c [c]
  | dot : Camel '.' ['.']
  | foreign {c : Char} (hc : isForeign c = true) (hdot : c ≠ '.') : Camel c ['_']

theorem camel_camelChar (second first : Option Char) (c : Char) (next : Option Char) :
    Camel c (camelChar second first c next) := by
  by_cases hlower : c.isLower = true
  · rw [camelChar_of_isLower hlower]
    split
    · exact .letter (isAlpha_of_isLower hlower)
    · exact .capital hlower
  · unfold camelChar
    split
    · next hunder =>
        subst hunder
        split
        · exact .dropped
        · exact .underscore
    · split
      · next hcopied =>
          rcases Bool.or_eq_true_iff.1 hcopied with hupper | hdigit
          · exact .letter (isAlpha_of_isUpper hupper)
          · exact .digit hdigit
      · split
        · next hdot =>
            subst hdot
            exact .dot
        · next hunder hcopied hdot =>
            have hforeign : isForeign c = true := by
              have hnot : c.isUpper = false ∧ c.isDigit = false := by simpa using hcopied
              simp [isForeign, isWordChar, Char.isAlphanum, Char.isAlpha, hnot, hlower, hunder]
            rw [if_pos hforeign]
            exact .foreign hforeign hdot

theorem isUpper_toUpper_of_isAlpha {c : Char} (hc : c.isAlpha = true) :
    c.toUpper.isUpper = true := by
  rw [Char.isUpper_toUpper_eq_isAlpha, hc]

theorem isWordChar_or_dot_of_camel {c d : Char} {ds : List Char} (h : Camel c ds) (hd : d ∈ ds) :
    isWordChar d = true ∨ d = '.' := by
  cases h with
  | dropped => cases hd
  | underscore => exact .inl (by rw [List.mem_singleton.1 hd]; rfl)
  | letter hc =>
      rw [List.mem_singleton.1 hd]
      exact .inl (isWordChar_of_isAlpha hc)
  | capital hc =>
      rw [List.mem_singleton.1 hd]
      have hupper := isUpper_toUpper_of_isAlpha (isAlpha_of_isLower hc)
      exact .inl (isWordChar_of_isAlpha (isAlpha_of_isUpper hupper))
  | digit hc =>
      rw [List.mem_singleton.1 hd]
      exact .inl (isWordChar_of_isDigit hc)
  | dot => exact .inr (List.mem_singleton.1 hd)
  | foreign => exact .inl (by rw [List.mem_singleton.1 hd]; rfl)

theorem dot_mem_iff_of_camel {c : Char} {ds : List Char} (h : Camel c ds) :
    '.' ∈ ds ↔ c = '.' := by
  cases h with
  | dropped => decide
  | underscore => decide
  | letter => rw [List.mem_singleton, eq_comm]
  | capital hc =>
      have hupper := isUpper_toUpper_of_isAlpha (isAlpha_of_isLower hc)
      have hne : c.toUpper ≠ '.' := by
        intro hdot
        rw [hdot] at hupper
        cases hupper
      have hdot : c ≠ '.' := by
        rintro rfl
        cases hc
      simp [hne.symm, hdot]
  | digit => rw [List.mem_singleton, eq_comm]
  | dot => decide
  | foreign hc hdot => simp [hdot]

/-! ## The whole name -/

theorem isWordChar_or_dot_of_mem_camelChars {before rest : List Char} {d : Char}
    (hd : d ∈ camelChars before rest) : isWordChar d = true ∨ d = '.' := by
  induction rest generalizing before with
  | nil => cases hd
  | cons c rest ih =>
      rw [camelChars] at hd
      rcases List.mem_append.1 hd with hd | hd
      · exact isWordChar_or_dot_of_camel (camel_camelChar _ _ _ _) hd
      · exact ih hd

theorem dot_mem_camelChars_iff {before rest : List Char} :
    '.' ∈ camelChars before rest ↔ '.' ∈ rest := by
  induction rest generalizing before with
  | nil => rfl
  | cons c rest ih =>
      rw [camelChars, List.mem_append, dot_mem_iff_of_camel (camel_camelChar _ _ _ _), ih,
        List.mem_cons, eq_comm]

theorem toList_upperCamel (name : String) :
    (upperCamel name).text.toList = camelLead name.toList ++ camelChars [] name.toList := by
  rw [upperCamel, segments, withLeadingLetter_camelAll, String.toList_ofList]

theorem isWordChar_or_dot_of_mem_upperCamel {name : String} {d : Char}
    (hd : d ∈ (upperCamel name).text.toList) : isWordChar d = true ∨ d = '.' := by
  rw [toList_upperCamel] at hd
  rcases List.mem_append.1 hd with hlead | hchars
  · have hx : d = 'X' := by
      unfold camelLead at hlead
      split at hlead
      · cases hlead
      · exact List.mem_singleton.1 hlead
    exact .inl (by rw [hx]; rfl)
  · exact isWordChar_or_dot_of_mem_camelChars hchars

theorem dot_mem_upperCamel_iff {name : String} :
    '.' ∈ (upperCamel name).text.toList ↔ '.' ∈ name.toList := by
  have hlead : '.' ∉ camelLead name.toList := by
    unfold camelLead
    split <;> decide
  rw [toList_upperCamel, List.mem_append, dot_mem_camelChars_iff]
  exact ⟨fun h => h.resolve_left hlead, .inr⟩

theorem exists_upperCamel_eq_cons (name : String) :
    ∃ c cs, (upperCamel name).text.toList = c :: cs ∧ c.isUpper = true := by
  rw [toList_upperCamel, camelLead]
  split
  · next hletter =>
      obtain ⟨c, hc, halpha⟩ := (Option.any_eq_true _ _).1 hletter
      obtain ⟨rest, hcons⟩ := List.head?_eq_some_iff.1 hc
      rw [hcons, camelChars, List.nil_append]
      by_cases hlower : c.isLower = true
      · have hchar : camelChar none none c rest[0]? = [c.toUpper] :=
          camelChar_of_isLower hlower _ _ _
        exact ⟨c.toUpper, _, by rw [List.getElem?_nil, List.getElem?_nil, hchar]; rfl,
          isUpper_toUpper_of_isAlpha halpha⟩
      · have hupper : c.isUpper = true := by simpa [Char.isAlpha, hlower] using halpha
        exact ⟨c, _, by rw [camelChar_of_isUpper hupper]; rfl, hupper⟩
  · exact ⟨'X', _, rfl, rfl⟩

end StubNames
