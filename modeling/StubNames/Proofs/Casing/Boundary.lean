import StubNames.Proofs.Casing.Pointwise
/-!
# Where segments begin and end

Whether two characters side by side belong to one segment depends on these two and on the one after
them.  `Segment.Cut` says what a segment holds, so that its own characters belong together;
`Segment.Ends` adds what stands right after it, so that none of that belongs to it as well.
-/

namespace StubNames

/-- Whether `c` and `d`, which stand side by side before `next`, belong to one segment. -/
def joins (c d : Char) (next : Option Char) : Bool :=
  (c.isDigit && d.isDigit) || (c.isAlpha && d.isLower) ||
    (c.isUpper && d.isUpper && !next.any Char.isLower)

theorem joins_of_isDigit {c : Char} (hc : c.isDigit = true) (d : Char) (next : Option Char) :
    joins c d next = d.isDigit := by
  have halpha : c.isUpper = false ∧ c.isLower = false := by
    simpa [Char.isAlpha] using isAlpha_eq_false_of_isDigit hc
  simp [joins, Char.isAlpha, hc, halpha]

theorem joins_of_isLower {c : Char} (hc : c.isLower = true) (d : Char) (next : Option Char) :
    joins c d next = d.isLower := by
  have halpha : c.isAlpha = true := isAlpha_of_isLower hc
  simp [joins, halpha, isDigit_eq_false_of_isAlpha halpha, isUpper_eq_false_of_isLower hc]

theorem joins_of_isUpper {c : Char} (hc : c.isUpper = true) (d : Char) (next : Option Char) :
    joins c d next = (d.isLower || d.isUpper && !next.any Char.isLower) := by
  have halpha : c.isAlpha = true := isAlpha_of_isUpper hc
  simp [joins, hc, halpha, isDigit_eq_false_of_isAlpha halpha]

theorem joins_of_not_isAlphanum {c : Char} (hc : c.isAlphanum = false) (d : Char)
    (next : Option Char) : joins c d next = false := by
  have hnot : c.isUpper = false ∧ c.isLower = false ∧ c.isDigit = false := by
    simpa [Char.isAlphanum, Char.isAlpha, and_assoc] using hc
  simp [joins, Char.isAlpha, hnot]

/-- The kind of a segment that consists of `text` and stands before `next`. -/
def SegmentKind.of (text : List Char) (next : Option Char) : SegmentKind :=
  if text.all Char.isDigit then .digits
  else if text.length = 1 ∧ text.all (fun c => !c.isAlphanum) then .separator
  else if text.all Char.isUpper ∧ (2 ≤ text.length ∨ next.any Char.isUpper) then .acronym
  else .word

namespace Segment

inductive Ends : Segment → List Char → Prop where
  | digits {run left : List Char} (hleft : left[0]?.any Char.isDigit = false) :
      Ends ⟨.digits, run⟩ left
  | acronym {c d : Char} {run left : List Char} (hleft : left[0]?.any Char.isUpper = false) :
      Ends ⟨.acronym, c :: d :: run⟩ left
  /-- Capitals before one that begins a word. -/
  | initials {run : List Char} {d : Char} {left : List Char} (hd : d.isUpper = true)
      (hleft : startsLower left = true) : Ends ⟨.acronym, run⟩ (d :: left)
  | word {c : Char} {run left : List Char}
      (hleft : c.isUpper = true → run = [] → left[0]?.any Char.isUpper = false) :
      Ends ⟨.word, c :: run⟩ left
  | separator {c : Char} {left : List Char} : Ends ⟨.separator, [c]⟩ left

theorem any_getElem?_dropWhile (p : Char → Bool) (cs : List Char) :
    (cs.dropWhile p)[0]?.any p = false := by
  have h := List.head?_dropWhile_not p cs
  rw [← List.head?_eq_getElem?]
  cases hhead : (cs.dropWhile p).head? with
  | none => rfl
  | some c => simpa [hhead] using h

theorem dropWhile_eq_self_of_takeWhile_eq_nil {p : Char → Bool} {cs : List Char}
    (h : cs.takeWhile p = []) : cs.dropWhile p = cs := by
  have hcs : cs.takeWhile p ++ cs.dropWhile p = cs := List.takeWhile_append_dropWhile
  rwa [h, List.nil_append] at hcs

private theorem ends_capitals {c : Char} {rest : List Char}
    (hne : rest.takeWhile Char.isUpper ≠ []) :
    if startsLower (rest.dropWhile Char.isUpper) then
      Ends ⟨.acronym, c :: (rest.takeWhile Char.isUpper).dropLast⟩
        (rest.drop ((rest.takeWhile Char.isUpper).length - 1))
    else
      Ends ⟨.acronym, c :: rest.takeWhile Char.isUpper⟩ (rest.dropWhile Char.isUpper) := by
  split
  · next hlower =>
      rw [drop_length_takeWhile_sub_one hne]
      exact .initials (List.mem_takeWhile_imp (List.getLast_mem hne)) hlower
  · obtain ⟨d, run, hcons⟩ := List.exists_cons_of_ne_nil hne
    have hleft := any_getElem?_dropWhile Char.isUpper rest
    rw [hcons]
    exact .acronym hleft

theorem ends_next (c : Char) (rest : List Char) : Ends (next c rest).1 (next c rest).2 := by
  unfold next
  split
  · exact .digits (any_getElem?_dropWhile Char.isDigit rest)
  · split
    · split
      · next hnil =>
          -- a single capital is not followed by another one
          refine .word fun _ hrun => ?_
          have hhead := any_getElem?_dropWhile Char.isUpper rest
          rw [dropWhile_eq_self_of_takeWhile_eq_nil hnil] at hhead
          rwa [dropWhile_eq_self_of_takeWhile_eq_nil hrun]
      · next hne =>
          have hends := ends_capitals (c := c) hne
          split at hends
          · next hlower => rwa [if_pos hlower]
          · next hlower => rwa [if_neg hlower]
    · next hupper =>
        split
        · exact .word fun h => absurd h hupper
        · exact .separator

/-! ## Inside a segment -/

theorem Cut.joins_eq_true {cs left : List Char} {s : Segment} (h : Cut cs s left) {i : Nat}
    {c d : Char} (hc : s.text[i]? = some c) (hd : s.text[i + 1]? = some d) :
    joins c d cs[i + 2]? = true := by
  have hcmem : c ∈ s.text := List.mem_of_getElem? hc
  have hdmem : d ∈ s.text := List.mem_of_getElem? hd
  cases h with
  | digits hne hrun =>
      rw [joins_of_isDigit (hrun c hcmem)]
      exact hrun d hdmem
  | @acronym run left hne hrun hleft =>
      -- what comes after the two is one more of the capitals, or what is left
      have hnext : (run ++ left)[i + 2]?.any Char.isLower = false := by
        have hlt : i + 1 < run.length := (List.getElem?_eq_some_iff.1 hd).1
        rcases Nat.lt_or_ge (i + 2) run.length with hin | hout
        · rw [List.getElem?_append_left hin, List.getElem?_eq_getElem hin]
          exact isLower_eq_false_of_isUpper (hrun _ (List.getElem_mem hin))
        · rw [List.getElem?_append_right hout, show i + 2 - run.length = 0 by omega,
            ← startsLower_eq, hleft]
      rw [joins_of_isUpper (hrun c hcmem), hrun d hdmem, hnext, Bool.not_false, Bool.and_true,
        Bool.or_true]
  | @word c₀ run left halpha hrun hleft =>
      have hdlower : d.isLower = true := hrun d (List.mem_of_getElem? hd)
      rcases List.mem_cons.1 hcmem with rfl | hcmem
      · rcases Bool.or_eq_true_iff.1 halpha with hupper | hlower
        · rw [joins_of_isUpper hupper, hdlower, Bool.true_or]
        · rw [joins_of_isLower hlower, hdlower]
      · rw [joins_of_isLower (hrun c hcmem), hdlower]
  | separator => simp at hd

/-- An underscore in a segment is all of it. -/
theorem Cut.eq_zero_of_underscore {cs left : List Char} {s : Segment} (h : Cut cs s left) {i : Nat}
    (hi : s.text[i]? = some '_') : i = 0 := by
  have hmem : '_' ∈ s.text := List.mem_of_getElem? hi
  cases h with
  | digits hne hrun => exact absurd rfl (ne_underscore_of_isDigit (hrun _ hmem))
  | acronym hne hrun hleft =>
      exact absurd rfl (ne_underscore_of_isAlpha (isAlpha_of_isUpper (hrun _ hmem)))
  | word halpha hrun hleft =>
      rcases List.mem_cons.1 hmem with rfl | hmem
      · cases halpha
      · cases hrun _ hmem
  | separator =>
      have hlt := (List.getElem?_eq_some_iff.1 hi).1
      simpa using hlt

/-! ## Across the end of a segment -/

theorem Ends.joins_eq_false {cs left : List Char} {s : Segment} (hends : Ends s left)
    (hcut : Cut cs s left) {c d : Char} (hc : s.text.getLast? = some c)
    (hd : left[0]? = some d) : joins c d left[1]? = false := by
  have hmem : c ∈ s.text := List.mem_of_getLast? hc
  have hlower (hleft : startsLower left = false) : d.isLower = false := by
    rwa [startsLower_eq, hd] at hleft
  cases hends with
  | digits hleft =>
      cases hcut with
      | digits hne hrun =>
          rw [hd] at hleft
          rw [joins_of_isDigit (hrun c hmem)]
          exact hleft
  | acronym hleft =>
      cases hcut with
      | acronym hne hrun hnot =>
          have hdupper : d.isUpper = false := by rwa [hd] at hleft
          rw [joins_of_isUpper (hrun c hmem), hlower hnot, hdupper, Bool.false_and, Bool.or_false]
  | @initials run d₀ left hupper hleft =>
      cases hcut with
      | acronym hne hrun hnot =>
          have hnext : (d₀ :: left)[1]?.any Char.isLower = true := by
            rwa [startsLower_eq] at hleft
          rw [joins_of_isUpper (hrun c hmem), hlower hnot, hnext, Bool.not_true, Bool.and_false,
            Bool.or_false]
  | @word c₀ run left hleft =>
      cases hcut with
      | word halpha hrun hnot =>
          cases run with
          | nil =>
              obtain rfl : c₀ = c := by simpa using hc
              rcases Bool.or_eq_true_iff.1 halpha with hupper | hclower
              · have hdupper : d.isUpper = false := by simpa [hd] using hleft hupper rfl
                rw [joins_of_isUpper hupper, hlower hnot, hdupper, Bool.false_and, Bool.or_false]
              · rw [joins_of_isLower hclower]
                exact hlower hnot
          | cons b run =>
              rw [List.getLast?_cons_cons] at hc
              rw [joins_of_isLower (hrun c (List.mem_of_getLast? hc))]
              exact hlower hnot
  | separator =>
      cases hcut with
      | separator hnot =>
          rw [List.mem_singleton.1 hmem]
          exact joins_of_not_isAlphanum hnot d _

/-! ## Kinds -/

theorem kind_of_letter {text : List Char} {c : Char} (hmem : c ∈ text) (hc : c.isAlpha = true)
    (next : Option Char) : SegmentKind.of text next =
      if text.all Char.isUpper ∧ (2 ≤ text.length ∨ next.any Char.isUpper) then .acronym
      else .word := by
  have hdigits : ¬text.all Char.isDigit = true := by
    intro hall
    have hdigit := List.all_eq_true.1 hall c hmem
    rw [isDigit_eq_false_of_isAlpha hc] at hdigit
    cases hdigit
  have hseparator : ¬(text.all fun c => !c.isAlphanum) = true := by
    intro hall
    have hnot := List.all_eq_true.1 hall c hmem
    simp [Char.isAlphanum, hc] at hnot
  rw [SegmentKind.of, if_neg hdigits, if_neg fun h => hseparator h.2]

theorem Cut.kind_eq {cs left : List Char} {s : Segment} (h : Cut cs s left) (hends : Ends s left) :
    SegmentKind.of s.text left[0]? = s.kind := by
  cases h with
  | @digits run left hne hrun =>
      rw [SegmentKind.of, if_pos (List.all_eq_true.2 hrun)]
  | @acronym run left hne hrun hleft =>
      obtain ⟨c, hc⟩ := List.exists_mem_of_ne_nil run hne
      rw [kind_of_letter hc (isAlpha_of_isUpper (hrun c hc)), if_pos]
      refine ⟨List.all_eq_true.2 hrun, ?_⟩
      cases hends with
      | acronym => exact .inl (by simp)
      | initials hd => exact .inr hd
  | @word c run left halpha hrun hleft =>
      rw [kind_of_letter List.mem_cons_self halpha, if_neg]
      rintro ⟨hupper, hlong⟩
      rw [List.all_cons, Bool.and_eq_true] at hupper
      cases hends with
      | word hends =>
          cases run with
          | nil => simp [hends hupper.1 rfl] at hlong
          | cons d run =>
              have hd : d.isUpper = true := List.all_eq_true.1 hupper.2 d List.mem_cons_self
              rw [isUpper_eq_false_of_isLower (hrun d List.mem_cons_self)] at hd
              cases hd
  | @separator c left hc =>
      have hdigit : c.isDigit = false := by
        rw [Char.isAlphanum, Bool.or_eq_false_iff] at hc
        exact hc.2
      simp [SegmentKind.of, hdigit, hc]

theorem Cut.exists_of_word {cs left : List Char} {s : Segment} (h : Cut cs s left)
    (hkind : s.kind = .word) :
    ∃ c run, s.text = c :: run ∧ c.isAlpha = true ∧ ∀ d ∈ run, d.isLower = true := by
  cases h with
  | digits => cases hkind
  | acronym => cases hkind
  | @word c run left halpha hrun => exact ⟨c, run, rfl, halpha, hrun⟩
  | separator => cases hkind

end Segment

end StubNames
