import StubNames.Proofs.Casing.Alphabet
/-!
# What the conversion conserves

Letters and digits come through the conversion in their order, changed in case at most; none is
lost, and none is added but the `X` of a name that does not start with a letter.  Runs of capitals
come through as they are, and dots keep their number.  So names that are converted alike have the
same letters and digits up to case.
-/

namespace StubNames

def folded (cs : List Char) : List Char :=
  (cs.filter Char.isAlphanum).map Char.toLower

/-- Whether `ds` has the letters and digits of `cs`, up to case, and as many dots. -/
structure Conserves (cs ds : List Char) : Prop where
  folded : folded ds = folded cs
  dots : ds.count '.' = cs.count '.'

theorem folded_append (cs ds : List Char) : folded (cs ++ ds) = folded cs ++ folded ds := by
  simp [folded]

theorem Conserves.refl (cs : List Char) : Conserves cs cs :=
  ⟨rfl, rfl⟩

theorem Conserves.append {cs ds cs' ds' : List Char} (h : Conserves cs ds)
    (h' : Conserves cs' ds') : Conserves (cs ++ cs') (ds ++ ds') where
  folded := by rw [folded_append, folded_append, h.folded, h'.folded]
  dots := by rw [List.count_append, List.count_append, h.dots, h'.dots]

/-! ## The rule -/

theorem conserves_of_camel {c : Char} {ds : List Char} (h : Camel c ds) : Conserves [c] ds := by
  cases h with
  | dropped => exact ⟨rfl, rfl⟩
  | underscore => exact .refl _
  | letter => exact .refl _
  | capital hc =>
      have hlower := isAlpha_of_isLower hc
      have hupper := isAlpha_of_isUpper (isUpper_toUpper_of_isAlpha hlower)
      have hdot {d : Char} (hd : d.isAlpha = true) : [d].count '.' = 0 := by
        rw [List.count_eq_zero, List.mem_singleton]
        rintro rfl
        cases hd
      constructor
      · simp [folded, Char.isAlphanum, hlower]
      · rw [hdot hlower, hdot hupper]
  | digit => exact .refl _
  | dot => exact .refl _
  | foreign hc hdot =>
      have hnot : c.isAlphanum = false := by
        rw [isForeign, isWordChar, Bool.not_eq_true', Bool.or_eq_false_iff] at hc
        exact hc.1
      have hunder : '_'.isAlphanum = false := rfl
      constructor
      · simp [folded, hnot, hunder]
      · simp [hdot]

/-- The front of a name is converted to a front of what the name is converted to. -/
theorem exists_camelChars_append (before front rest : List Char) :
    ∃ left, camelChars before (front ++ rest) = left ++ camelChars (front.reverse ++ before) rest ∧
      Conserves front left := by
  induction front generalizing before with
  | nil => exact ⟨[], rfl, .refl []⟩
  | cons c front ih =>
      obtain ⟨left, hleft, hconserves⟩ := ih (c :: before)
      have hcamel := camel_camelChar before[1]? before[0]? c (front ++ rest)[0]?
      refine ⟨camelChar before[1]? before[0]? c (front ++ rest)[0]? ++ left, ?_, ?_⟩
      · rw [List.cons_append, camelChars, hleft, List.reverse_cons, List.append_assoc,
          List.append_assoc, List.singleton_append]
      · exact (conserves_of_camel hcamel).append hconserves

theorem conserves_camelChars (before cs : List Char) : Conserves cs (camelChars before cs) := by
  obtain ⟨left, hleft, hconserves⟩ := exists_camelChars_append before cs []
  rw [List.append_nil, camelChars, List.append_nil] at hleft
  rwa [hleft]

/-- Capitals in a row are copied, between what comes of the texts around them. -/
theorem exists_camelChars_capitals {run : List Char} (hrun : ∀ c ∈ run, c.isUpper = true)
    (before front back : List Char) :
    ∃ left right, camelChars before (front ++ run ++ back) = left ++ run ++ right ∧
      Conserves front left ∧ Conserves back right := by
  obtain ⟨left, hleft, hconserves⟩ := exists_camelChars_append before front (run ++ back)
  have hcopied := camelChars_append_of_copied (fun c hc => camelChar_of_isUpper (hrun c hc))
    (front.reverse ++ before) back
  rw [hcopied, ← List.append_assoc, ← List.append_assoc] at hleft
  exact ⟨left, _, hleft, hconserves, conserves_camelChars _ back⟩

/-! ## The conversion -/

/-- The letter that a name gets which does not start with one. -/
theorem folded_camelLead (cs : List Char) :
    folded (camelLead cs) = if cs.head?.any Char.isAlpha then [] else ['x'] := by
  unfold camelLead
  split <;> rfl

theorem count_dot_camelLead (cs : List Char) : (camelLead cs).count '.' = 0 := by
  unfold camelLead
  split <;> rfl

theorem folded_upperCamel (name : String) : folded (upperCamel name).text.toList =
    (if name.toList.head?.any Char.isAlpha then [] else ['x']) ++ folded name.toList := by
  rw [toList_upperCamel, folded_append, folded_camelLead, (conserves_camelChars [] _).folded]

/-- The conversion keeps the letters and digits of a name in their order, up to case, behind an `X`
where the name does not start with a letter.  Capitals in a row stay as they are, between what comes
of the texts around them, and the number of dots is kept.  So two names that are converted alike
have the same letters and digits up to case, if both start with a letter or neither does. -/
theorem upperCamel_conserves (name : String) :
    folded (upperCamel name).text.toList =
      (if name.toList.head?.any Char.isAlpha then folded name.toList
        else 'x' :: folded name.toList) ∧
    (∀ front run back, name.toList = front ++ run ++ back → (∀ c ∈ run, c.isUpper = true) →
      ∃ left right, (upperCamel name).text.toList = left ++ run ++ right ∧
        folded left = (if name.toList.head?.any Char.isAlpha then folded front
          else 'x' :: folded front) ∧
        folded right = folded back) ∧
    (upperCamel name).text.toList.count '.' = name.toList.count '.' ∧
    ∀ other : String,
      name.toList.head?.any Char.isAlpha = other.toList.head?.any Char.isAlpha →
      upperCamel name = upperCamel other → folded name.toList = folded other.toList := by
  refine ⟨?_, fun front run back hname hrun => ?_, ?_, fun other hstart hsame => ?_⟩
  · rw [folded_upperCamel]
    split <;> rfl
  · obtain ⟨left, right, hchars, hleft, hright⟩ := exists_camelChars_capitals hrun [] front back
    refine ⟨camelLead name.toList ++ left, right, ?_, ?_, hright.folded⟩
    · rw [toList_upperCamel, hname, hchars]
      simp
    · rw [folded_append, folded_camelLead, hleft.folded]
      split <;> rfl
  · rw [toList_upperCamel, List.count_append, count_dot_camelLead, Nat.zero_add,
      (conserves_camelChars [] _).dots]
  · have hfolded :
        folded (upperCamel name).text.toList = folded (upperCamel other).text.toList := by
      rw [hsame]
    rw [folded_upperCamel, folded_upperCamel, hstart] at hfolded
    exact List.append_cancel_left hfolded

theorem upperCamel_conserves_parse_url :
    (∃ left right, (upperCamel "parse_myURL").text.toList = left ++ "URL".toList ++ right ∧
      folded left = "parsemy".toList ∧ folded right = []) ∧
    upperCamel "parse_myURL" = upperCamel "ParseMyURL" ∧
    folded "parse_myURL".toList = folded "ParseMyURL".toList := by
  have hsame : upperCamel "parse_myURL" = upperCamel "ParseMyURL" := by decide +kernel
  obtain ⟨-, hruns, -, hfolded⟩ := upperCamel_conserves "parse_myURL"
  obtain ⟨left, right, htext, hleft, hright⟩ :=
    hruns "parse_my".toList "URL".toList [] (by decide +kernel) (by simp)
  refine ⟨⟨left, right, htext, ?_, hright⟩, hsame, hfolded "ParseMyURL" rfl hsame⟩
  rw [hleft]
  decide +kernel

end StubNames
