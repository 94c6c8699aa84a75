import StubNames.Proofs.Casing.Alphabet
/-!
# Foreign characters divide a name

What a character becomes is settled by the two characters before it and the one after it.  A name
can be converted in two parts wherever the second part does not begin with a lowercase letter, and
what follows a foreign character does not depend on anything before that one.  So a foreign
character divides a name into parts that are converted apart.
-/

namespace StubNames

/-! ## How far a character sees -/

/-- Of the character after it, a character only sees whether it is a lowercase letter. -/
theorem camelChar_eq_of_next (second first : Option Char) (c : Char) {next next' : Option Char}
    (h : next.any Char.isLower = next'.any Char.isLower) :
    camelChar second first c next = camelChar second first c next' := by
  unfold camelChar
  rw [h]

/-- Characters further back than the second one are no matter. -/
theorem camelChars_eq_of_nearest {before before' : List Char} (hfirst : before[0]? = before'[0]?)
    (hsecond : before[1]? = before'[1]?) (rest : List Char) :
    camelChars before rest = camelChars before' rest := by
  induction rest generalizing before before' with
  | nil => rfl
  | cons c rest ih =>
      have hrest : camelChars (c :: before) rest = camelChars (c :: before') rest := by
        apply ih
        · rfl
        · simpa using hfirst
      rw [camelChars, camelChars, hfirst, hsecond, hrest]

/-- A name is converted in two parts where no lowercase letter begins the second one. -/
theorem camelChars_append (before front : List Char) {rest : List Char}
    (hrest : rest[0]?.any Char.isLower = false) :
    camelChars before (front ++ rest) =
      camelChars before front ++ camelChars (front.reverse ++ before) rest := by
  induction front generalizing before with
  | nil => rfl
  | cons c front ih =>
      have hnext : (front ++ rest)[0]?.any Char.isLower = front[0]?.any Char.isLower := by
        cases front with
        | nil => exact hrest
        | cons d front => rfl
      rw [List.cons_append, camelChars, camelChars, camelChar_eq_of_next _ _ _ hnext, ih,
        List.append_assoc, List.reverse_cons, List.append_assoc, List.singleton_append]

/-! ## Foreign characters -/

variable {c : Char}

theorem isAlpha_eq_false_of_isForeign (hc : isForeign c = true) : c.isAlpha = false := by
  by_contra halpha
  rw [isForeign, isWordChar_of_isAlpha (by simpa using halpha)] at hc
  cases hc

theorem isLower_eq_false_of_isForeign (hc : isForeign c = true) : c.isLower = false := by
  have halpha := isAlpha_eq_false_of_isForeign hc
  rw [Char.isAlpha, Bool.or_eq_false_iff] at halpha
  exact halpha.2

/-- A foreign character becomes the same wherever it stands. -/
theorem camelChar_of_isForeign (hc : isForeign c = true) (second first next : Option Char) :
    camelChar second first c next = if c = '.' then ['.'] else ['_'] := by
  have hnot : (c.isAlpha = false ∧ c.isDigit = false) ∧ c ≠ '_' := by
    simpa [isForeign, isWordChar, Char.isAlphanum] using hc
  have hupper : c.isUpper = false := by
    have halpha := hnot.1.1
    rw [Char.isAlpha, Bool.or_eq_false_iff] at halpha
    exact halpha.1
  simp [camelChar, hnot.2, hupper, hnot.1.2, hc]

/-- Right after a foreign character casing is kept, whatever stands before that. -/
theorem camelChar_after_isForeign (hc : isForeign c = true) (second second' : Option Char)
    (d : Char) (next : Option Char) :
    camelChar second (some c) d next = camelChar second' (some c) d next := by
  have hkeeps (s : Option Char) : keepsCasing s (some c) = true := by
    simp [keepsCasing, hc]
  simp [camelChar, hkeeps]

/-- What stands before a foreign character is no matter for what stands after it. -/
theorem camelChars_after_isForeign (hc : isForeign c = true) (before before' rest : List Char) :
    camelChars (c :: before) rest = camelChars (c :: before') rest := by
  cases rest with
  | nil => rfl
  | cons d rest =>
      have hhead := camelChar_after_isForeign hc before[0]? before'[0]? d rest[0]?
      have htail : camelChars (d :: c :: before) rest = camelChars (d :: c :: before') rest := by
        apply camelChars_eq_of_nearest
        · rfl
        · rfl
      rw [camelChars, camelChars, htail]
      exact congrArg (· ++ _) hhead

/-- A foreign character and what follows it are converted alike wherever they stand. -/
theorem camelChars_isForeign_cons (hc : isForeign c = true) (before before' rest : List Char) :
    camelChars before (c :: rest) = camelChars before' (c :: rest) := by
  rw [camelChars, camelChars, camelChar_of_isForeign hc, camelChar_of_isForeign hc,
    camelChars_after_isForeign hc before before']

/-! ## The conversion -/

theorem camelLead_append_isForeign (hc : isForeign c = true) (front rest : List Char) :
    camelLead (front ++ c :: rest) = camelLead front := by
  cases front with
  | nil => simp [camelLead, isAlpha_eq_false_of_isForeign hc]
  | cons d front => rfl

/-- A foreign character divides the conversion of a name.  What it becomes, with the conversion of
all that follows it, is the same behind any front; and the front is converted as if it were the
whole name. -/
theorem upperCamel_append_isForeign (hc : isForeign c = true) (rest : String) :
    ∃ converted : String,
      (upperCamel (String.singleton c ++ rest)).text = "X" ++ converted ∧
      ∀ front : String, (upperCamel (front ++ String.singleton c ++ rest)).text =
        (upperCamel front).text ++ converted := by
  have hlower : (c :: rest.toList)[0]?.any Char.isLower = false :=
    isLower_eq_false_of_isForeign hc
  refine ⟨String.ofList (camelChars [] (c :: rest.toList)), ?_, fun front => ?_⟩
  · have hlead : camelLead (c :: rest.toList) = ['X'] := camelLead_append_isForeign hc [] _
    apply String.toList_inj.1
    simp [toList_upperCamel, hlead]
  · have hlead := camelLead_append_isForeign hc front.toList rest.toList
    have happend := camelChars_append [] front.toList hlower
    rw [camelChars_isForeign_cons hc _ []] at happend
    apply String.toList_inj.1
    simp [toList_upperCamel, hlead, happend]

theorem upperCamel_append_isForeign_hyphen : isForeign '-' = true ∧
    (upperCamel ("my_PDF" ++ String.singleton '-' ++ "_file")).text =
      (upperCamel "my_PDF").text ++ "_file" := by
  have hhyphen : isForeign '-' = true := by decide
  obtain ⟨converted, hconverted, hfront⟩ := upperCamel_append_isForeign hhyphen "_file"
  have hrest : "X" ++ "_file" = "X" ++ converted := by
    rw [← hconverted]
    cbv
  refine ⟨hhyphen, ?_⟩
  rw [hfront, (String.append_right_inj "X").1 hrest]

end StubNames
