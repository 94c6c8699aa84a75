import StubNames.Proofs.Casing.Image
/-!
# Where the conversion is idempotent

Converting a converted name changes nothing but underscores: one that stands before a lowercase
letter is dropped, and then the letter is capitalised.  So the names that stay as they are are those
without such an underscore, and a name of word characters and dots never has one once it is
converted.  It takes a foreign character, as in `my-field`, which is `My_field` first and then
`MyField`.
-/

namespace StubNames

/-- Whether `b` may follow `a` in a name that keeps its underscores. -/
def Unmarked (a b : Char) : Prop :=
  ¬(a = '_' ∧ b.isLower = true)

/-! ## Converting a converted name -/

theorem camelChar_underscore_of_lower (second first : Option Char) {next : Option Char}
    (hnext : next.any Char.isLower = true) : camelChar second first '_' next = [] := by
  rw [camelChar, if_pos rfl, hnext, Bool.or_true, if_pos rfl]

theorem camelChar_underscore_of_not_lower (second : Option Char) (c : Char) {next : Option Char}
    (hnext : next.any Char.isLower = false) : camelChar second (some c) '_' next = ['_'] := by
  rw [camelChar, if_pos rfl, hnext]
  rfl

theorem not_lower_of_isChain {cs : List Char} (h : ('_' :: cs).IsChain Unmarked) :
    cs[0]?.any Char.isLower = false := by
  cases cs with
  | nil => rfl
  | cons b cs =>
      have hb : Unmarked '_' b := (List.isChain_cons_cons.1 h).1
      simpa [Unmarked] using hb

theorem length_camelChars_le (before rest : List Char) :
    (camelChars before rest).length ≤ rest.length := by
  induction rest generalizing before with
  | nil => exact Nat.le_refl 0
  | cons c rest ih =>
      have hrest := ih (c :: before)
      rw [camelChars, List.length_append, List.length_cons]
      rcases camelChar_cases before[1]? before[0]? c rest[0]? with ⟨-, hchar⟩ | ⟨d, hchar, -⟩
      · rw [hchar, List.length_nil]
        omega
      · rw [hchar, List.length_singleton]
        omega

/-- A text that comes out as it is has lost no underscore. -/
theorem isChain_of_camelChars_eq {before cs : List Char} (h : camelChars before cs = cs) :
    cs.IsChain Unmarked := by
  induction cs generalizing before with
  | nil => exact List.isChain_nil
  | cons c cs ih =>
      rw [camelChars] at h
      rcases camelChar_cases before[1]? before[0]? c cs[0]? with ⟨-, hchar⟩ | ⟨d, hchar, -⟩
      · -- a text that has lost a character is shorter
        have hlength := length_camelChars_le (c :: before) cs
        rw [hchar, List.nil_append] at h
        rw [h, List.length_cons] at hlength
        omega
      · rw [hchar, List.singleton_append] at h
        refine List.isChain_cons.2 ⟨?_, ih (List.cons.inj h).2⟩
        rintro b hb ⟨rfl, hlower⟩
        have hnext : cs[0]?.any Char.isLower = true := by
          rw [← List.head?_eq_getElem?, hb]
          exact hlower
        rw [camelChar_underscore_of_lower _ _ hnext] at hchar
        cases hchar

/-- What has the form of a converted name and keeps its underscores comes out as it is. -/
theorem camelChars_eq_self {cs : List Char} {c : Char} (before : List Char)
    (hcased : (c :: cs).IsChain Cased) (halphabet : ∀ d ∈ c :: cs, isWordChar d = true ∨ d = '.')
    (hunmarked : (c :: cs).IsChain Unmarked) : camelChars (c :: before) cs = cs := by
  induction cs generalizing c before with
  | nil => rfl
  | cons d cs ih =>
      obtain ⟨hcasedHere, hcasedRest⟩ := List.isChain_cons_cons.1 hcased
      obtain ⟨hunmarkedHere, hunmarkedRest⟩ := List.isChain_cons_cons.1 hunmarked
      have hc := halphabet c List.mem_cons_self
      have hd := halphabet d (List.mem_cons_of_mem c List.mem_cons_self)
      have hrest := ih (c :: before) hcasedRest
        (fun e he => halphabet e (List.mem_cons_of_mem c he)) hunmarkedRest
      have hchar : camelChar before[0]? (some c) d cs[0]? = [d] := by
        by_cases hunder : d = '_'
        · subst hunder
          exact camelChar_underscore_of_not_lower _ _ (not_lower_of_isChain hunmarkedRest)
        · refine camelChar_eq_singleton hd hunder (fun hlower => ?_) _
          refine keepsCasing_of_cased hcasedHere hlower hc (fun hcunder => ?_) _
          exact hunmarkedHere ⟨hcunder, hlower⟩
      rw [camelChars, hrest]
      exact congrArg (· ++ cs) hchar

/-- The fixed points of the conversion. -/
theorem IsCamel.upperCamel_eq_iff {t : String} (h : IsCamel t.toList) :
    (upperCamel t).text = t ↔ t.toList.IsChain Unmarked := by
  obtain ⟨c, rest, hcons, hupper⟩ := h.capital
  rw [← String.toList_inj, toList_upperCamel_of_isUpper hcons hupper, hcons, List.cons_inj_right]
  constructor
  · intro hrest
    refine List.isChain_cons.2 ⟨?_, isChain_of_camelChars_eq hrest⟩
    rintro b - ⟨rfl, -⟩
    cases hupper
  · intro hunmarked
    exact camelChars_eq_self [] (hcons ▸ h.cased) (hcons ▸ h.alphabet) hunmarked

/-! ## Names without foreign characters -/

theorem isLower_of_camel {c d : Char} (h : Camel c [d]) (hd : d.isLower = true) :
    c.isLower = true := by
  cases h with
  | underscore => cases hd
  | letter => exact hd
  | capital hc => exact hc
  | digit => exact hd
  | dot => cases hd
  | foreign => cases hd

theorem eq_underscore_of_camel {c : Char} (h : Camel c ['_'])
    (hc : isWordChar c = true ∨ c = '.') : c = '_' := by
  generalize hds : ['_'] = ds at h
  cases h with
  | dropped => cases hds
  | underscore => rfl
  | letter => exact (List.singleton_inj.1 hds).symm
  | capital hlower =>
      have hupper := isUpper_toUpper_of_isAlpha (isAlpha_of_isLower hlower)
      rw [← List.singleton_inj.1 hds] at hupper
      cases hupper
  | digit => exact (List.singleton_inj.1 hds).symm
  | dot => cases hds
  | foreign hforeign hdot =>
      rw [isForeign, hc.resolve_right hdot] at hforeign
      cases hforeign

/-- An underscore that was written last was read last, or more underscores have been dropped
since; either way a lowercase letter that comes next is capitalised. -/
theorem isChain_unmarked_camelChars (rest : List Char) {last : Char} {before : List Char}
    (halphabet : ∀ c ∈ rest, isWordChar c = true ∨ c = '.')
    (hlast : last = '_' → before[0]? = some '_' ∧
      (rest[0]?.any Char.isLower = true → keepsCasing before[1]? before[0]? = false)) :
    (last :: camelChars before rest).IsChain Unmarked := by
  induction rest generalizing last before with
  | nil => exact List.isChain_singleton last
  | cons c rest ih =>
      have hrest : ∀ e ∈ rest, isWordChar e = true ∨ e = '.' :=
        fun e he => halphabet e (List.mem_cons_of_mem c he)
      have hcamel := camel_camelChar before[1]? before[0]? c rest[0]?
      rw [camelChars]
      rcases camelChar_cases before[1]? before[0]? c rest[0]? with
        ⟨rfl, hdropped⟩ | ⟨d, hd, hkeeps, -⟩
      · rw [hdropped, List.nil_append]
        refine ih hrest fun hunder => ⟨rfl, fun _ => ?_⟩
        have hnearer : before[0]? = some '_' := (hlast hunder).1
        change keepsCasing before[0]? (some '_') = false
        rw [hnearer]
        rfl
      · rw [hd] at hcamel
        rw [hd, List.singleton_append, List.isChain_cons_cons]
        refine ⟨?_, ih hrest ?_⟩
        · rintro ⟨hunder, hlower⟩
          have hcapital := (hlast hunder).2 (isLower_of_camel hcamel hlower)
          rw [hkeeps hlower] at hcapital
          cases hcapital
        · rintro rfl
          obtain rfl := eq_underscore_of_camel hcamel (halphabet c List.mem_cons_self)
          refine ⟨rfl, fun hlower => ?_⟩
          rw [camelChar_underscore_of_lower _ _ hlower] at hd
          cases hd

theorem isChain_unmarked_upperCamel {name : String}
    (h : ∀ c ∈ name.toList, isWordChar c = true ∨ c = '.') :
    (upperCamel name).text.toList.IsChain Unmarked := by
  refine isChain_upperCamel (isChain_unmarked_camelChars name.toList h fun hunder => ?_)
  cases hunder

theorem upperCamel_upperCamel_iff_isChain (name : String) :
    upperCamel (upperCamel name).text = upperCamel name ↔
      (upperCamel name).text.toList.IsChain Unmarked := by
  rw [← (isCamel_upperCamel name).upperCamel_eq_iff]
  exact ⟨congrArg Identifier.text, fun h => congrArg Identifier.mk h⟩

/-- Converting twice is the same as converting once exactly for the names whose converted form has
no underscore before a lowercase letter.  All names of word characters and dots are among them, so
all that either grammar of identifiers takes are. -/
theorem upperCamel_upperCamel_eq_iff (name : String) :
    (upperCamel (upperCamel name).text = upperCamel name ↔
      ∀ i b, (upperCamel name).text.toList[i]? = some '_' →
        (upperCamel name).text.toList[i + 1]? = some b → b.isLower = false) ∧
    ((∀ c ∈ name.toList, c.isAlpha = true ∨ c.isDigit = true ∨ c = '_' ∨ c = '.') →
      upperCamel (upperCamel name).text = upperCamel name) ∧
    ∀ (g : Identifier.Grammar) id, g.read name = .ok id →
      upperCamel (upperCamel name).text = upperCamel name := by
  have hword (h : ∀ c ∈ name.toList, isWordChar c = true ∨ c = '.') :
      upperCamel (upperCamel name).text = upperCamel name :=
    (upperCamel_upperCamel_iff_isChain name).2 (isChain_unmarked_upperCamel h)
  refine ⟨?_, fun h => ?_, fun g id hread => ?_⟩
  · rw [upperCamel_upperCamel_iff_isChain, isChain_iff_getElem?]
    constructor
    · intro hchain i b hunder hb
      have hnot := hchain i '_' b hunder hb
      simpa [Unmarked] using hnot
    · rintro hplaces i a b ha hb ⟨rfl, hlower⟩
      rw [hplaces i b ha hb] at hlower
      cases hlower
  · exact hword fun c hc => isWordChar_or_dot_iff.2 (h c hc)
  · have hfault := (Identifier.Grammar.read_eq_ok_iff.1 hread).1
    exact hword (Identifier.isDotted_of_fault? hfault).isWordChar_or_dot

theorem upperCamel_upperCamel_my_field :
    upperCamel (upperCamel "_my_field_2").text = upperCamel "_my_field_2" :=
  (upperCamel_upperCamel_eq_iff "_my_field_2").2.1 (by simp)

example : (upperCamel "my-field").text = "My_field" := by cbv

example : (upperCamel "My_field").text = "MyField" := by cbv

end StubNames
