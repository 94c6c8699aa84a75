import StubNames.Suffix
/-!
# The grammars of identifiers

What the two grammars accept, said without the check that looks for a fault.  A text is dotted when
it starts with a letter or an underscore and goes on with word characters and dots, and it is plain
when it is dotted and has no dot.  Joining and suffixing keep a text dotted.
-/

namespace StubNames

theorem firstForeign_eq_none_iff {allowed : Char → Bool} {cs : List Char} :
    firstForeign allowed cs = none ↔ ∀ c ∈ cs, allowed c = true := by
  refine ⟨firstForeign_eq_none, fun h => List.find?_eq_none.2 fun p hp => ?_⟩
  have hallowed : allowed p.1 = true := h p.1 (List.fst_mem_of_mem_zipIdx hp)
  simp [hallowed]

theorem Suffix.parse_eq_ok_iff {s : String} {x : Suffix} : Suffix.parse s = .ok x ↔ s = x.text := by
  constructor
  · intro h
    unfold Suffix.parse at h
    split at h
    · cases h
      rfl
    · cases h
  · rintro rfl
    have hnone : firstForeign isWordChar x.text.toList = none :=
      firstForeign_eq_none_iff.2 x.isWord
    unfold Suffix.parse
    split
    · rfl
    · next p hsome =>
        rw [hnone] at hsome
        cases hsome

namespace Identifier

/-- A letter or an underscore, and then word characters and dots. -/
def IsDotted (s : String) : Prop :=
  ∃ c cs, s.toList = c :: cs ∧ (c.isAlpha = true ∨ c = '_') ∧
    ∀ d ∈ cs, isWordChar d = true ∨ d = '.'

/-! ## The check -/

theorem Grammar.fault?_eq_none_iff {g : Grammar} {s : String} :
    g.fault? s = none ↔
      ∃ c cs, s.toList = c :: cs ∧ isStart c = true ∧ ∀ d ∈ cs, g.continues d = true := by
  unfold fault?
  split
  · next hnil => simp [hnil]
  · next c cs hcons =>
      rw [hcons]
      split
      · next hstart =>
          rw [Option.map_eq_none_iff, firstForeign_eq_none_iff]
          constructor
          · intro hcontinues
            exact ⟨c, cs, rfl, hstart, hcontinues⟩
          · rintro ⟨c', cs', heq, -, hcontinues⟩
            obtain ⟨rfl, rfl⟩ := List.cons.inj heq
            exact hcontinues
      · next hstart =>
          constructor
          · intro hsome
            cases hsome
          · rintro ⟨c', cs', heq, hstart', -⟩
            obtain ⟨rfl, rfl⟩ := List.cons.inj heq
            exact absurd hstart' hstart

theorem Grammar.isStart_iff {c : Char} : isStart c = true ↔ c.isAlpha = true ∨ c = '_' := by
  simp [isStart]

theorem Grammar.read_eq_ok_iff {g : Grammar} {s : String} {id : Identifier} :
    g.read s = .ok id ↔ g.fault? s = none ∧ id = ⟨s⟩ := by
  unfold read
  split
  · next hnone => simp [hnone, eq_comm]
  · next e hsome => simp [hsome]

theorem Grammar.read_eq_error_iff {g : Grammar} {s : String} {e : IdentifierError} :
    g.read s = .error e ↔ g.fault? s = some e := by
  unfold read
  cases g.fault? s <;> simp

/-- Both grammars stay within the dotted one. -/
theorem isDotted_of_fault? {g : Grammar} {s : String} (h : g.fault? s = none) : IsDotted s := by
  obtain ⟨c, cs, hcons, hstart, hcontinues⟩ := Grammar.fault?_eq_none_iff.1 h
  refine ⟨c, cs, hcons, Grammar.isStart_iff.1 hstart, fun d hd => ?_⟩
  rcases Bool.or_eq_true_iff.1 (hcontinues d hd) with hword | hdot
  · exact .inl hword
  · exact .inr (by simpa using (Bool.and_eq_true_iff.1 hdot).2)

theorem fault?_dotted_eq_none_iff {s : String} :
    Grammar.dotted.fault? s = none ↔ IsDotted s := by
  simp [Grammar.fault?_eq_none_iff, IsDotted, Grammar.isStart_iff, Grammar.continues]

theorem isPlain_iff {s : String} : isPlain s = true ↔ IsDotted s ∧ '.' ∉ s.toList := by
  rw [isPlain, Option.isNone_iff_eq_none, Grammar.fault?_eq_none_iff]
  constructor
  · rintro ⟨c, cs, hcons, hstart, hcontinues⟩
    have hword : ∀ d ∈ cs, isWordChar d = true := by
      simpa [Grammar.continues] using hcontinues
    refine ⟨⟨c, cs, hcons, Grammar.isStart_iff.1 hstart, fun d hd => .inl (hword d hd)⟩, ?_⟩
    rw [hcons]
    intro hdot
    rcases List.mem_cons.1 hdot with rfl | hdot
    · exact absurd hstart (by decide)
    · exact absurd (hword '.' hdot) (by decide)
  · rintro ⟨⟨c, cs, hcons, hstart, hcontinues⟩, hdot⟩
    refine ⟨c, cs, hcons, Grammar.isStart_iff.2 hstart, fun d hd => ?_⟩
    have hne : d ≠ '.' := by
      rintro rfl
      exact hdot (hcons ▸ List.mem_cons_of_mem c hd)
    simp [Grammar.continues, (hcontinues d hd).resolve_right hne]

/-! ## Composition -/

theorem IsDotted.append {s t : String} (hs : IsDotted s)
    (ht : ∀ d ∈ t.toList, isWordChar d = true ∨ d = '.') : IsDotted (s ++ t) := by
  obtain ⟨c, cs, hcons, hstart, hcontinues⟩ := hs
  refine ⟨c, cs ++ t.toList, by rw [String.toList_append, hcons]; rfl, hstart, ?_⟩
  intro d hd
  rcases List.mem_append.1 hd with hd | hd
  · exact hcontinues d hd
  · exact ht d hd

theorem IsDotted.isWordChar_or_dot {s : String} (hs : IsDotted s) :
    ∀ d ∈ s.toList, isWordChar d = true ∨ d = '.' := by
  obtain ⟨c, cs, hcons, hstart, hcontinues⟩ := hs
  rw [hcons]
  intro d hd
  rcases List.mem_cons.1 hd with rfl | hd
  · rcases hstart with halpha | hunder
    · exact .inl (by simp [isWordChar, Char.isAlphanum, halpha])
    · exact .inl (by rw [hunder]; rfl)
  · exact hcontinues d hd

theorem toList_join (a b : Identifier) :
    (a.join b).text.toList = a.text.toList ++ '_' :: b.text.toList := by
  simp [join]

theorem toList_withSuffix (a : Identifier) (x : Suffix) :
    (a.withSuffix x).text.toList = a.text.toList ++ x.text.toList := by
  simp [withSuffix]

theorem IsDotted.join {a b : Identifier} (ha : IsDotted a.text) (hb : IsDotted b.text) :
    IsDotted (a.join b).text := by
  have hunder : IsDotted (a.text ++ "_") := by
    refine ha.append fun d hd => .inl ?_
    rw [List.mem_singleton.1 hd]
    rfl
  exact hunder.append hb.isWordChar_or_dot

theorem IsDotted.withSuffix {a : Identifier} (ha : IsDotted a.text) (x : Suffix) :
    IsDotted (a.withSuffix x).text :=
  ha.append fun d hd => .inl (x.isWord d hd)

theorem dot_mem_join_iff {a b : Identifier} :
    '.' ∈ (a.join b).text.toList ↔ '.' ∈ a.text.toList ∨ '.' ∈ b.text.toList := by
  simp [toList_join]

theorem dot_mem_withSuffix_iff {a : Identifier} {x : Suffix} :
    '.' ∈ (a.withSuffix x).text.toList ↔ '.' ∈ a.text.toList := by
  have hsuffix : '.' ∉ x.text.toList := fun hdot => absurd (x.isWord '.' hdot) (by decide)
  simp [toList_withSuffix, hsuffix]

theorem isPlain_join_iff {a b : Identifier} (ha : IsDotted a.text) (hb : IsDotted b.text) :
    isPlain (a.join b).text = true ↔ isPlain a.text = true ∧ isPlain b.text = true := by
  rw [isPlain_iff, isPlain_iff, isPlain_iff, dot_mem_join_iff]
  simp [ha, hb, ha.join hb]

theorem isPlain_withSuffix_iff {a : Identifier} (ha : IsDotted a.text) (x : Suffix) :
    isPlain (a.withSuffix x).text = true ↔ isPlain a.text = true := by
  rw [isPlain_iff, isPlain_iff, dot_mem_withSuffix_iff]
  simp [ha, ha.withSuffix x]

theorem withSuffix_right_inj {a : Identifier} {x y : Suffix} :
    a.withSuffix x = a.withSuffix y ↔ x = y := by
  obtain ⟨s, hs⟩ := x
  obtain ⟨t, ht⟩ := y
  simp [withSuffix, String.append_right_inj]

end Identifier

end StubNames
