import StubNames.Proofs.Casing.Alphabet
import StubNames.Proofs.Identifier.Grammar
/-!
# The image of the conversion

A text is a converted name exactly if it starts with a capital, holds word characters and dots
only, and has no lowercase letter right after a digit.  One way of writing it as a declared name is
to put hyphens for its underscores: a hyphen always becomes an underscore and is never dropped.
-/

namespace StubNames

/-- Whether `b` may follow `a` in a converted name. -/
def Cased (a b : Char) : Prop :=
  ¬(a.isDigit = true ∧ b.isLower = true)

structure IsCamel (cs : List Char) : Prop where
  capital : ∃ c rest, cs = c :: rest ∧ c.isUpper = true
  alphabet : ∀ c ∈ cs, isWordChar c = true ∨ c = '.'
  cased : cs.IsChain Cased

theorem isDigit_eq_false_of_isUpper {c : Char} (hc : c.isUpper = true) : c.isDigit = false :=
  isDigit_eq_false_of_isAlpha (isAlpha_of_isUpper hc)

theorem isForeign_eq_false_of_isDigit {c : Char} (hc : c.isDigit = true) : isForeign c = false := by
  rw [isForeign, isWordChar_of_isDigit hc, Bool.not_true]

/-! ## Converted names have the form -/

/-- A character is dropped if it is an underscore.  Otherwise a lowercase letter stands only where
casing is kept, and a digit only for a digit. -/
theorem camelChar_cases (second first : Option Char) (c : Char) (next : Option Char) :
    (c = '_' ∧ camelChar second first c next = []) ∨
      ∃ d, camelChar second first c next = [d] ∧
        (d.isLower = true → keepsCasing second first = true) ∧
        (d.isDigit = true → c.isDigit = true) := by
  by_cases hlower : c.isLower = true
  · rw [camelChar_of_isLower hlower]
    split
    · next hkeeps => exact .inr ⟨c, rfl, fun _ => hkeeps, id⟩
    · have hupper := isUpper_toUpper_of_isAlpha (isAlpha_of_isLower hlower)
      refine .inr ⟨c.toUpper, rfl, fun h => ?_, fun h => ?_⟩
      · rw [isLower_eq_false_of_isUpper hupper] at h
        cases h
      · rw [isDigit_eq_false_of_isUpper hupper] at h
        cases h
  · have hcamel := camel_camelChar second first c next
    generalize camelChar second first c next = ds at hcamel ⊢
    cases hcamel with
    | dropped => exact .inl ⟨rfl, rfl⟩
    | underscore => exact .inr ⟨'_', rfl, fun h => (nomatch h), fun h => (nomatch h)⟩
    | letter => exact .inr ⟨c, rfl, fun h => absurd h hlower, id⟩
    | capital h => exact absurd h hlower
    | digit => exact .inr ⟨c, rfl, fun h => absurd h hlower, id⟩
    | dot => exact .inr ⟨'.', rfl, fun h => (nomatch h), fun h => (nomatch h)⟩
    | foreign => exact .inr ⟨'_', rfl, fun h => (nomatch h), fun h => (nomatch h)⟩

/-- Casing that is kept after an underscore is kept before it as well. -/
theorem keepsCasing_of_underscore {third second : Option Char}
    (h : keepsCasing second (some '_') = true) : keepsCasing third second = true := by
  have hforeign : second.any isForeign = true := h
  cases second with
  | none => cases hforeign
  | some c =>
      have hc : isForeign c = true := hforeign
      simp [keepsCasing, hc]

theorem keepsCasing_of_isDigit {second : Option Char} {c : Char} (hc : c.isDigit = true) :
    keepsCasing second (some c) = false := by
  simp [keepsCasing, isAlpha_eq_false_of_isDigit hc, isForeign_eq_false_of_isDigit hc,
    ne_underscore_of_isDigit hc]

/-- Where casing is kept, the last character that was written is no digit; so no lowercase letter
is ever written after one. -/
theorem isChain_camelChars (rest : List Char) {last : Char} {before : List Char}
    (hlast : keepsCasing before[1]? before[0]? = true → last.isDigit = false) :
    (last :: camelChars before rest).IsChain Cased := by
  induction rest generalizing last before with
  | nil => exact List.isChain_singleton last
  | cons c rest ih =>
      rw [camelChars]
      rcases camelChar_cases before[1]? before[0]? c rest[0]? with
        ⟨rfl, hdropped⟩ | ⟨d, hd, hlower, hdigit⟩
      · rw [hdropped, List.nil_append]
        refine ih fun hkeeps => hlast ?_
        exact keepsCasing_of_underscore hkeeps
      · rw [hd, List.singleton_append, List.isChain_cons_cons]
        refine ⟨?_, ih fun hkeeps => ?_⟩
        · rintro ⟨hlastdigit, hdlower⟩
          rw [hlast (hlower hdlower)] at hlastdigit
          cases hlastdigit
        · by_contra hddigit
          have hc : c.isDigit = true := hdigit (by simpa using hddigit)
          have hnot : keepsCasing before[0]? (some c) = false := keepsCasing_of_isDigit hc
          exact absurd (hnot.symm.trans hkeeps) Bool.false_ne_true

/-- Whether or not the name has got its `X`. -/
theorem isChain_upperCamel {R : Char → Char → Prop} {name : String}
    (h : ('X' :: camelChars [] name.toList).IsChain R) :
    (upperCamel name).text.toList.IsChain R := by
  rw [toList_upperCamel, camelLead]
  split
  · exact h.tail
  · exact h

theorem isCamel_upperCamel (name : String) : IsCamel (upperCamel name).text.toList :=
  ⟨exists_upperCamel_eq_cons name, fun _ hc => isWordChar_or_dot_of_mem_upperCamel hc,
    isChain_upperCamel (isChain_camelChars name.toList fun _ => rfl)⟩

/-! ## All texts of the form are converted names -/

def uncamelChar (c : Char) : Char :=
  if c = '_' then '-' else c

theorem uncamelChar_of_ne {c : Char} (hc : c ≠ '_') : uncamelChar c = c :=
  if_neg hc

theorem keepsCasing_of_cased {c d : Char} (hcased : Cased c d) (hd : d.isLower = true)
    (hc : isWordChar c = true ∨ c = '.') (hunder : c ≠ '_') (second : Option Char) :
    keepsCasing second (some c) = true := by
  have hdigit : c.isDigit = false := by
    by_contra h
    exact hcased ⟨by simpa using h, hd⟩
  rcases hc with hword | rfl
  · have halpha : c.isAlpha = true := by
      simpa [isWordChar, Char.isAlphanum, hdigit, hunder] using hword
    simp [keepsCasing, halpha]
  · rfl

/-- Apart from underscores, the characters of a converted name are copied wherever casing is
kept. -/
theorem camelChar_eq_singleton {d : Char} (hd : isWordChar d = true ∨ d = '.') (hunder : d ≠ '_')
    {second first : Option Char} (hkeeps : d.isLower = true → keepsCasing second first = true)
    (next : Option Char) : camelChar second first d next = [d] := by
  by_cases hlower : d.isLower = true
  · rw [camelChar_of_isLower hlower, hkeeps hlower, if_pos rfl]
  · rcases hd with hword | rfl
    · have hcopied : (d.isUpper || d.isDigit) = true := by
        simpa [isWordChar, Char.isAlphanum, Char.isAlpha, hunder, hlower] using hword
      rw [camelChar, if_neg hunder, if_pos hcopied]
    · rfl

theorem keepsCasing_uncamelChar {c d : Char} (hcased : Cased c d) (hd : d.isLower = true)
    (hc : isWordChar c = true ∨ c = '.') (second : Option Char) :
    keepsCasing second (some (uncamelChar c)) = true := by
  by_cases hunder : c = '_'
  · subst hunder
    rfl
  · rw [uncamelChar_of_ne hunder]
    exact keepsCasing_of_cased hcased hd hc hunder second

theorem camelChar_uncamelChar {c d : Char} (hcased : Cased c d)
    (hc : isWordChar c = true ∨ c = '.') (hd : isWordChar d = true ∨ d = '.')
    (second next : Option Char) :
    camelChar second (some (uncamelChar c)) (uncamelChar d) next = [d] := by
  by_cases hunder : d = '_'
  · subst hunder
    rfl
  · rw [uncamelChar_of_ne hunder]
    refine camelChar_eq_singleton hd hunder (fun hlower => ?_) next
    exact keepsCasing_uncamelChar hcased hlower hc second

theorem camelChars_uncamel {cs : List Char} {c : Char} (before : List Char)
    (hchain : (c :: cs).IsChain Cased) (halphabet : ∀ d ∈ c :: cs, isWordChar d = true ∨ d = '.') :
    camelChars (uncamelChar c :: before) (cs.map uncamelChar) = cs := by
  induction cs generalizing c before with
  | nil => rfl
  | cons d cs ih =>
      obtain ⟨hcased, htail⟩ := List.isChain_cons_cons.1 hchain
      have hc := halphabet c List.mem_cons_self
      have hd := halphabet d (List.mem_cons_of_mem c List.mem_cons_self)
      have hrest := ih (uncamelChar c :: before) htail fun e he =>
        halphabet e (List.mem_cons_of_mem c he)
      rw [List.map_cons, camelChars, hrest]
      rw [List.getElem?_cons_zero, camelChar_uncamelChar hcased hc hd, List.singleton_append]

/-- A capital in front is copied, and no `X` is put there. -/
theorem toList_upperCamel_of_isUpper {t : String} {c : Char} {rest : List Char}
    (hcons : t.toList = c :: rest) (hc : c.isUpper = true) :
    (upperCamel t).text.toList = c :: camelChars [c] rest := by
  have halpha : (c :: rest).head?.any Char.isAlpha = true := isAlpha_of_isUpper hc
  rw [toList_upperCamel, hcons, camelLead, if_pos halpha, camelChars, camelChar_of_isUpper hc]
  rfl

theorem exists_upperCamel_eq {t : String} (h : IsCamel t.toList) :
    ∃ name, name ≠ "" ∧ (upperCamel name).text = t := by
  obtain ⟨c, rest, hcons, hupper⟩ := h.capital
  have hkept : uncamelChar c = c :=
    uncamelChar_of_ne (ne_underscore_of_isAlpha (isAlpha_of_isUpper hupper))
  have hrest : camelChars [uncamelChar c] (rest.map uncamelChar) = rest :=
    camelChars_uncamel [] (hcons ▸ h.cased) (hcons ▸ h.alphabet)
  refine ⟨String.ofList (c :: rest.map uncamelChar), by simp, String.toList_inj.1 ?_⟩
  rw [toList_upperCamel_of_isUpper String.toList_ofList hupper, hcons]
  rw [hkept] at hrest
  rw [hrest]

theorem isCamel_iff {t : String} :
    IsCamel t.toList ↔ ∃ name, name ≠ "" ∧ (upperCamel name).text = t := by
  refine ⟨exists_upperCamel_eq, ?_⟩
  rintro ⟨name, -, rfl⟩
  exact isCamel_upperCamel name

/-! ## The form, place by place -/

theorem isWordChar_or_dot_iff {c : Char} : isWordChar c = true ∨ c = '.' ↔
    c.isAlpha = true ∨ c.isDigit = true ∨ c = '_' ∨ c = '.' := by
  simp [isWordChar, Char.isAlphanum, or_assoc]

theorem isChain_iff_getElem? {α : Type} {R : α → α → Prop} {l : List α} :
    l.IsChain R ↔ ∀ i a b, l[i]? = some a → l[i + 1]? = some b → R a b := by
  rw [List.isChain_iff_getElem]
  constructor
  · intro h i a b ha hb
    obtain ⟨_, rfl⟩ := List.getElem?_eq_some_iff.1 ha
    obtain ⟨hlt, rfl⟩ := List.getElem?_eq_some_iff.1 hb
    exact h i hlt
  · intro h i hlt
    exact h i _ _ (List.getElem?_eq_getElem (Nat.lt_of_succ_lt hlt)) (List.getElem?_eq_getElem hlt)

theorem IsCamel.isDotted {t : String} (h : IsCamel t.toList) : Identifier.IsDotted t := by
  obtain ⟨c, rest, hcons, hupper⟩ := h.capital
  refine ⟨c, rest, hcons, .inl (isAlpha_of_isUpper hupper), fun d hd => ?_⟩
  exact h.alphabet d (hcons ▸ List.mem_cons_of_mem c hd)

/-- The converted names are the texts of a form that every place can be checked for: a capital
first, letters, digits, underscores and dots only, and no lowercase letter after a digit.  So every
converted name is an identifier of the dotted grammar. -/
theorem exists_upperCamel_iff (t : String) :
    ((∃ name, (upperCamel name).text = t) ↔
      (∃ c rest, t.toList = c :: rest ∧ c.isUpper = true) ∧
      (∀ c ∈ t.toList, c.isAlpha = true ∨ c.isDigit = true ∨ c = '_' ∨ c = '.') ∧
      ∀ i a b, t.toList[i]? = some a → t.toList[i + 1]? = some b →
        ¬(a.isDigit = true ∧ b.isLower = true)) ∧
    ∀ name, Identifier.parseDotted (upperCamel name).text = .ok (upperCamel name) := by
  refine ⟨⟨?_, ?_⟩, fun name => ?_⟩
  · rintro ⟨name, rfl⟩
    have hcamel := isCamel_upperCamel name
    exact ⟨hcamel.capital, fun c hc => isWordChar_or_dot_iff.1 (hcamel.alphabet c hc),
      isChain_iff_getElem?.1 hcamel.cased⟩
  · rintro ⟨hcapital, halphabet, hcased⟩
    have hcamel : IsCamel t.toList :=
      ⟨hcapital, fun c hc => isWordChar_or_dot_iff.2 (halphabet c hc),
        isChain_iff_getElem?.2 hcased⟩
    obtain ⟨name, -, hname⟩ := exists_upperCamel_eq hcamel
    exact ⟨name, hname⟩
  · have hfault := Identifier.fault?_dotted_eq_none_iff.2 (isCamel_upperCamel name).isDotted
    exact Identifier.Grammar.read_eq_ok_iff.2 ⟨hfault, rfl⟩

end StubNames
