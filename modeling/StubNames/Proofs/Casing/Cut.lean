import Mathlib
import StubNames.UpperCamel
/-!
# What the scan of a name cuts off

The first segment of a name is its head, and its kind says which characters it holds and what
cannot stand right after it. Proofs about segments split on `Segment.Cut` and never on the
scanner itself.
-/

namespace StubNames

/-! ## Classes of characters -/

theorem isUpper_eq_false_of_isLower {c : Char} (h : c.isLower = true) : c.isUpper = false := by
  simpa using Char.not_isUpper_of_isLower h

theorem isLower_eq_false_of_isUpper {c : Char} (h : c.isUpper = true) : c.isLower = false := by
  simpa using Char.not_isLower_of_isUpper h

theorem isAlpha_of_isLower {c : Char} (h : c.isLower = true) : c.isAlpha = true := by
  rw [Char.isAlpha, h, Bool.or_true]

theorem isAlpha_of_isUpper {c : Char} (h : c.isUpper = true) : c.isAlpha = true := by
  rw [Char.isAlpha, h, Bool.true_or]

theorem isDigit_eq_false_of_isAlpha {c : Char} (h : c.isAlpha = true) : c.isDigit = false := by
  simp only [Char.isAlpha, Char.isUpper, Char.isLower, Char.isDigit, Bool.or_eq_true,
    Bool.and_eq_true, decide_eq_true_eq, UInt32.le_iff_toNat_le, ge_iff_le,
    Bool.and_eq_false_iff, decide_eq_false_iff_not] at h ⊢
  have : 'A'.val.toNat = 65 := rfl
  have : 'a'.val.toNat = 97 := rfl
  have : '9'.val.toNat = 57 := rfl
  omega

theorem isAlpha_eq_false_of_isDigit {c : Char} (h : c.isDigit = true) : c.isAlpha = false := by
  by_contra ha
  rw [isDigit_eq_false_of_isAlpha (by simpa using ha)] at h
  cases h

theorem isWordChar_of_isAlpha {c : Char} (h : c.isAlpha = true) : isWordChar c = true := by
  simp [isWordChar, Char.isAlphanum, h]

theorem isWordChar_of_isDigit {c : Char} (h : c.isDigit = true) : isWordChar c = true := by
  simp [isWordChar, Char.isAlphanum, h]

theorem ne_underscore_of_isAlpha {c : Char} (h : c.isAlpha = true) : c ≠ '_' := by
  rintro rfl
  exact absurd h (by decide)

theorem ne_underscore_of_isDigit {c : Char} (h : c.isDigit = true) : c ≠ '_' := by
  rintro rfl
  exact absurd h (by decide)

namespace Segment

/-! ## One segment -/

/-- The first segment of a name, and what is left after it. -/
inductive Cut : List Char → Segment → List Char → Prop where
  | digits {run left : List Char} (hne : run ≠ []) (hrun : ∀ d ∈ run, d.isDigit = true) :
      Cut (run ++ left) ⟨.digits, run⟩ left
  | acronym {run left : List Char} (hne : run ≠ []) (hrun : ∀ d ∈ run, d.isUpper = true)
      (hleft : startsLower left = false) : Cut (run ++ left) ⟨.acronym, run⟩ left
  | word {c : Char} {run left : List Char} (hc : c.isAlpha = true)
      (hrun : ∀ d ∈ run, d.isLower = true) (hleft : startsLower left = false) :
      Cut (c :: run ++ left) ⟨.word, c :: run⟩ left
  | separator {c : Char} {left : List Char} (hc : c.isAlphanum = false) :
      Cut (c :: left) ⟨.separator, [c]⟩ left

theorem startsLower_dropWhile_isLower (cs : List Char) :
    startsLower (cs.dropWhile Char.isLower) = false := by
  induction cs with
  | nil => rfl
  | cons c cs ih =>
      by_cases hc : c.isLower = true
      · rw [List.dropWhile_cons_of_pos hc]
        exact ih
      · rw [List.dropWhile_cons_of_neg hc]
        simpa [startsLower] using hc

private theorem cut_word {c : Char} (hc : c.isAlpha = true) (rest : List Char) :
    Cut (c :: rest) ⟨.word, c :: rest.takeWhile Char.isLower⟩ (rest.dropWhile Char.isLower) := by
  have hrun : ∀ d ∈ rest.takeWhile Char.isLower, d.isLower = true :=
    fun d hd => List.mem_takeWhile_imp hd
  have hcut := Cut.word hc hrun (startsLower_dropWhile_isLower rest)
  rwa [List.cons_append, List.takeWhile_append_dropWhile] at hcut

theorem drop_length_takeWhile_sub_one {p : Char → Bool} {cs : List Char}
    (hne : cs.takeWhile p ≠ []) :
    cs.drop ((cs.takeWhile p).length - 1) = (cs.takeWhile p).getLast hne :: cs.dropWhile p := by
  conv_lhs => rw [← List.takeWhile_append_dropWhile (p := p) (l := cs)]
  have hlength : (cs.takeWhile p ++ cs.dropWhile p).takeWhile p = cs.takeWhile p := by
    rw [List.takeWhile_append_dropWhile]
  rw [hlength, List.drop_append_of_le_length (by omega), List.drop_length_sub_one hne]
  rfl

/-- Several capitals: the last one stays behind if it begins a word. -/
private theorem cut_capitals {c : Char} {rest : List Char} (hc : c.isUpper = true)
    (hne : rest.takeWhile Char.isUpper ≠ []) :
    if startsLower (rest.dropWhile Char.isUpper) then
      Cut (c :: rest) ⟨.acronym, c :: (rest.takeWhile Char.isUpper).dropLast⟩
        (rest.drop ((rest.takeWhile Char.isUpper).length - 1))
    else
      Cut (c :: rest) ⟨.acronym, c :: rest.takeWhile Char.isUpper⟩
        (rest.dropWhile Char.isUpper) := by
  have hcapitals : ∀ d ∈ rest.takeWhile Char.isUpper, d.isUpper = true :=
    fun d hd => List.mem_takeWhile_imp hd
  have hrest : rest.takeWhile Char.isUpper ++ rest.dropWhile Char.isUpper = rest :=
    List.takeWhile_append_dropWhile
  have hdrop := drop_length_takeWhile_sub_one hne
  generalize rest.takeWhile Char.isUpper = capitals at *
  generalize rest.dropWhile Char.isUpper = tail at *
  subst hrest
  split
  · have hlast := hcapitals _ (List.getLast_mem hne)
    have hjoin :
        c :: capitals.dropLast ++ capitals.getLast hne :: tail = c :: (capitals ++ tail) := by
      rw [List.append_cons, List.cons_append, List.dropLast_concat_getLast, List.cons_append]
    rw [hdrop, ← hjoin]
    refine .acronym (by simp) (fun d hd => ?_) (isLower_eq_false_of_isUpper hlast)
    rcases List.mem_cons.1 hd with rfl | hd
    · exact hc
    · exact hcapitals d (List.mem_of_mem_dropLast hd)
  · next htail =>
      rw [← List.cons_append]
      refine .acronym (by simp) (fun d hd => ?_) (by simpa using htail)
      rcases List.mem_cons.1 hd with rfl | hd
      · exact hc
      · exact hcapitals d hd

theorem cut_next (c : Char) (rest : List Char) :
    Cut (c :: rest) (next c rest).1 (next c rest).2 := by
  unfold next
  split
  · next hdigit =>
      have hjoin : c :: rest.takeWhile Char.isDigit ++ rest.dropWhile Char.isDigit = c :: rest := by
        rw [List.cons_append, List.takeWhile_append_dropWhile]
      rw [← hjoin]
      refine .digits (by simp) fun d hd => ?_
      rcases List.mem_cons.1 hd with rfl | hd
      · exact hdigit
      · exact List.mem_takeWhile_imp hd
  · next hdigit =>
      split
      · next hupper =>
          split
          · exact cut_word (isAlpha_of_isUpper hupper) rest
          · next hne =>
              have hcut := cut_capitals hupper hne
              split at hcut
              · next hlower => rwa [if_pos hlower]
              · next hlower => rwa [if_neg hlower]
      · next hupper =>
          split
          · next hlower => exact cut_word (isAlpha_of_isLower hlower) rest
          · next hlower =>
              exact Cut.separator (by simp [Char.isAlphanum, Char.isAlpha, hdigit, hupper, hlower])

theorem Cut.append_eq {cs left : List Char} {s : Segment} (h : Cut cs s left) :
    s.text ++ left = cs := by
  cases h <;> rfl

theorem Cut.text_ne_nil {cs left : List Char} {s : Segment} (h : Cut cs s left) :
    s.text ≠ [] := by
  cases h with
  | digits hne => exact hne
  | acronym hne => exact hne
  | word => exact List.cons_ne_nil _ _
  | separator => exact List.cons_ne_nil _ _

end Segment

end StubNames
