import StubNames.Convention
/-!
# Escaping

Fields and types are escaped alike, each against its own reserved names: a reserved name gets the
escape suffix once, and the longer name is not looked at again.  So escaping keeps two names apart
unless one of them is reserved and the other, which is not, already reads like its escaped form.
-/

namespace StubNames

theorem Identifier.text_inj {a b : Identifier} : a.text = b.text ↔ a = b := by
  cases a
  cases b
  simp

namespace Convention

variable {c : Convention} {reserved : Ordered.Set String} {a b : Identifier}

def escapeIn (c : Convention) (reserved : Ordered.Set String) (a : Identifier) : Identifier :=
  if a.text ∈ reserved then c.escape a else a

theorem safeFieldName_eq_escapeIn (a : Identifier) :
    c.safeFieldName a = c.escapeIn c.reservedFields a := by
  simp [safeFieldName, isReservedField, escapeIn]

theorem safeTypeName_eq_escapeIn (a : Identifier) :
    c.safeTypeName a = c.escapeIn c.reservedTypes a := by
  simp [safeTypeName, isReservedType, escapeIn]

theorem escapeIn_text_of_mem (ha : a.text ∈ reserved) :
    (c.escapeIn reserved a).text = a.text ++ c.escapeSuffix.text := by
  rw [escapeIn, if_pos ha]
  rfl

theorem escapeIn_text_of_notMem (ha : a.text ∉ reserved) :
    (c.escapeIn reserved a).text = a.text := by
  rw [escapeIn, if_neg ha]

theorem append_escapeSuffix_ne (hescape : c.escapeSuffix.text ≠ "") (text : String) :
    text ++ c.escapeSuffix.text ≠ text := by
  intro heq
  have hlength := congrArg String.length heq
  have hpos : c.escapeSuffix.text.length ≠ 0 := by simpa using hescape
  rw [String.length_append] at hlength
  omega

/-- A name leaves the set by being escaped, unless its escaped form is in the set too. -/
theorem escapeIn_mem_iff :
    (c.escapeIn reserved a).text ∈ reserved ↔
      a.text ∈ reserved ∧ a.text ++ c.escapeSuffix.text ∈ reserved := by
  by_cases ha : a.text ∈ reserved
  · rw [escapeIn_text_of_mem ha]
    simp [ha]
  · rw [escapeIn_text_of_notMem ha]
    simp [ha]

/-! ## Names that escaping merges -/

/-- A name that is taken, and a free one that reads like the escaped form of it. -/
structure Clash (c : Convention) (reserved : Ordered.Set String) (a b : Identifier) : Prop where
  taken : a.text ∈ reserved
  free : b.text ∉ reserved
  escaped : b.text = a.text ++ c.escapeSuffix.text

theorem escapeIn_inj_of_mem (ha : a.text ∈ reserved) (hb : b.text ∈ reserved) :
    c.escapeIn reserved a = c.escapeIn reserved b ↔ a = b := by
  rw [← Identifier.text_inj, escapeIn_text_of_mem ha, escapeIn_text_of_mem hb,
    String.append_left_inj, Identifier.text_inj]

theorem escapeIn_inj_of_notMem (ha : a.text ∉ reserved) (hb : b.text ∉ reserved) :
    c.escapeIn reserved a = c.escapeIn reserved b ↔ a = b := by
  rw [← Identifier.text_inj, escapeIn_text_of_notMem ha, escapeIn_text_of_notMem hb,
    Identifier.text_inj]

theorem escapeIn_eq_iff_clash (ha : a.text ∈ reserved) (hb : b.text ∉ reserved) :
    c.escapeIn reserved a = c.escapeIn reserved b ↔ c.Clash reserved a b := by
  rw [← Identifier.text_inj, escapeIn_text_of_mem ha, escapeIn_text_of_notMem hb]
  constructor
  · intro htext
    exact ⟨ha, hb, htext.symm⟩
  · intro hclash
    exact hclash.escaped.symm

theorem escapeIn_eq_escapeIn_iff (hne : a ≠ b) :
    c.escapeIn reserved a = c.escapeIn reserved b ↔
      c.Clash reserved a b ∨ c.Clash reserved b a := by
  by_cases ha : a.text ∈ reserved
  · by_cases hb : b.text ∈ reserved
    · rw [escapeIn_inj_of_mem ha hb]
      constructor
      · intro hsame
        exact absurd hsame hne
      · rintro (hclash | hclash)
        · exact absurd hb hclash.free
        · exact absurd ha hclash.free
    · have hback : ¬c.Clash reserved b a := fun hclash => hb hclash.taken
      rw [escapeIn_eq_iff_clash ha hb, or_iff_left hback]
  · have hforth : ¬c.Clash reserved a b := fun hclash => ha hclash.taken
    rw [or_iff_right hforth]
    by_cases hb : b.text ∈ reserved
    · rw [eq_comm, escapeIn_eq_iff_clash hb ha]
    · rw [escapeIn_inj_of_notMem ha hb]
      constructor
      · intro hsame
        exact absurd hsame hne
      · intro hclash
        exact absurd hclash.taken hb

/-- Under any convention, escaping makes two different names of fields equal exactly if one is
reserved and the other is its escaped form and not reserved, and of types likewise.  In particular
it keeps reserved names apart. -/
theorem escape_merges_iff (c : Convention) {a b : Identifier} (hne : a ≠ b) :
    (c.safeFieldName a = c.safeFieldName b ↔
      c.Clash c.reservedFields a b ∨ c.Clash c.reservedFields b a) ∧
    (c.safeTypeName a = c.safeTypeName b ↔
      c.Clash c.reservedTypes a b ∨ c.Clash c.reservedTypes b a) ∧
    (a.text ∈ c.reservedFields → b.text ∈ c.reservedFields →
      c.safeFieldName a ≠ c.safeFieldName b) ∧
    (a.text ∈ c.reservedTypes → b.text ∈ c.reservedTypes →
      c.safeTypeName a ≠ c.safeTypeName b) := by
  rw [safeFieldName_eq_escapeIn, safeFieldName_eq_escapeIn, safeTypeName_eq_escapeIn,
    safeTypeName_eq_escapeIn]
  refine ⟨escapeIn_eq_escapeIn_iff hne, escapeIn_eq_escapeIn_iff hne, fun ha hb hsame => ?_,
    fun ha hb hsame => ?_⟩
  · exact hne ((escapeIn_inj_of_mem ha hb).1 hsame)
  · exact hne ((escapeIn_inj_of_mem ha hb).1 hsame)

/-- The built-in convention merges `String` with `String_`, but not with `Reset`. -/
theorem escape_merges_iff_string :
    go.safeFieldName ⟨"String"⟩ = go.safeFieldName ⟨"String_"⟩ ∧
      go.safeFieldName ⟨"String"⟩ ≠ go.safeFieldName ⟨"Reset"⟩ := by
  have hmerged := (go.escape_merges_iff (a := ⟨"String"⟩) (b := ⟨"String_"⟩) (by decide)).1
  have hapart := (go.escape_merges_iff (a := ⟨"String"⟩) (b := ⟨"Reset"⟩) (by decide)).2.2.1
  refine ⟨hmerged.2 (.inl ⟨by decide, by decide, by decide⟩), ?_⟩
  exact hapart (by decide) (by decide)

end Convention

end StubNames
