import StubNames.Proofs.Casing.Cut
/-!
# Upper camel case, character by character

The conversion cuts a name into segments and looks at the segment before.  Here it is a rule for
single characters instead: what a character becomes depends only on the two characters before it
and on the one after it.  The invariant that ties the two is `Segment.Aligned`, which says what
the segment before and the characters before have in common whenever a segment has been read.
-/

namespace StubNames

/-! ## The rule -/

/-- Neither a letter nor a digit nor an underscore. -/
def isForeign (c : Char) : Bool :=
  !isWordChar c

/-- Whether a lowercase letter keeps its casing: after a letter, and after a foreign character
even if an underscore stands between. -/
def keepsCasing (second first : Option Char) : Bool :=
  first.any (fun c => c.isAlpha || isForeign c) || (first == some '_' && second.any isForeign)

/-- What `c` becomes after the characters `second` and `first`, `first` being the nearer one, and
before `next`. -/
def camelChar (second first : Option Char) (c : Char) (next : Option Char) : List Char :=
  if c = '_' then
    if first.isNone || next.any Char.isLower then [] else ['_']
  else if c.isUpper || c.isDigit then [c]
  else if c = '.' then ['.']
  else if isForeign c then ['_']
  else if keepsCasing second first then [c]
  else [c.toUpper]

def camelAt (cs : List Char) (i : Nat) : List Char :=
  match cs[i]? with
  | none => []
  | some c =>
    camelChar (if 2 ≤ i then cs[i - 2]? else none) (if 1 ≤ i then cs[i - 1]? else none) c
      cs[i + 1]?

def camelLead (cs : List Char) : List Char :=
  if cs.head?.any Char.isAlpha then [] else ['X']

/-! ## The rule along a name -/

/-- The rule applied to all of `rest` after the characters `before`, the nearest first. -/
def camelChars (before : List Char) : List Char → List Char
  | [] => []
  | c :: rest => camelChar before[1]? before[0]? c rest[0]? ++ camelChars (c :: before) rest

theorem camelAt_length (before : List Char) (c : Char) (rest : List Char) :
    camelAt (before.reverse ++ c :: rest) before.length =
      camelChar before[1]? before[0]? c rest[0]? := by
  have hself : (before.reverse ++ c :: rest)[before.length]? = some c := by simp
  have hnext : (before.reverse ++ c :: rest)[before.length + 1]? = rest[0]? := by
    rw [List.getElem?_append_right (by simp)]
    simp
  have hback (k : Nat) : (if k + 1 ≤ before.length then
      (before.reverse ++ c :: rest)[before.length - (k + 1)]? else none) = before[k]? := by
    split
    · next hk =>
        rw [List.getElem?_append_left (by rw [List.length_reverse]; omega),
          List.getElem?_reverse (by omega)]
        congr 1
        omega
    · next hk => rw [List.getElem?_eq_none (by omega)]
  rw [camelAt, hself, hnext]
  simp only [hback]

theorem camelChars_eq_flatMap (before rest : List Char) :
    camelChars before rest =
      (List.range' before.length rest.length).flatMap (camelAt (before.reverse ++ rest)) := by
  induction rest generalizing before with
  | nil => rfl
  | cons c rest ih =>
      have hshift : before.reverse ++ c :: rest = (c :: before).reverse ++ rest := by simp
      rw [camelChars, ih (c :: before), List.length_cons, List.length_cons, List.range'_succ,
        List.flatMap_cons, camelAt_length, ← hshift]

theorem camelChars_nil_eq_flatMap (cs : List Char) :
    camelChars [] cs = (List.range cs.length).flatMap (camelAt cs) := by
  rw [camelChars_eq_flatMap, List.range_eq_range']
  rfl

/-! ## The rule along a segment -/

theorem camelChar_of_isUpper {c : Char} (hc : c.isUpper = true)
    (second first next : Option Char) : camelChar second first c next = [c] := by
  rw [camelChar, if_neg (ne_underscore_of_isAlpha (isAlpha_of_isUpper hc)), hc, Bool.true_or,
    if_pos rfl]

theorem camelChar_of_isDigit {c : Char} (hc : c.isDigit = true)
    (second first next : Option Char) : camelChar second first c next = [c] := by
  rw [camelChar, if_neg (ne_underscore_of_isDigit hc), hc, Bool.or_true, if_pos rfl]

theorem camelChar_of_isLower {c : Char} (hc : c.isLower = true)
    (second first next : Option Char) :
    camelChar second first c next = if keepsCasing second first then [c] else [c.toUpper] := by
  have halpha := isAlpha_of_isLower hc
  have hdot : c ≠ '.' := by
    rintro rfl
    exact absurd hc (by decide)
  simp [camelChar, ne_underscore_of_isAlpha halpha, isUpper_eq_false_of_isLower hc,
    isDigit_eq_false_of_isAlpha halpha, hdot, isForeign, isWordChar_of_isAlpha halpha]

theorem camelChars_append_of_copied {run : List Char}
    (hrun : ∀ d ∈ run, ∀ second first next, camelChar second first d next = [d])
    (before left : List Char) :
    camelChars before (run ++ left) = run ++ camelChars (run.reverse ++ before) left := by
  induction run generalizing before with
  | nil => rfl
  | cons d run ih =>
      have htail : ∀ e ∈ run, ∀ second first next, camelChar second first e next = [e] :=
        fun e he => hrun e (List.mem_cons_of_mem d he)
      rw [List.cons_append, camelChars, hrun d List.mem_cons_self, ih htail]
      simp

theorem Segment.startsLower_eq (cs : List Char) :
    Segment.startsLower cs = cs[0]?.any Char.isLower := by
  cases cs <;> rfl

theorem camelChars_append_of_lower {run : List Char} (hrun : ∀ d ∈ run, d.isLower = true)
    {c : Char} (hc : c.isAlpha = true) (before left : List Char) :
    camelChars (c :: before) (run ++ left) =
      run ++ camelChars (run.reverse ++ c :: before) left := by
  induction run generalizing c before with
  | nil => rfl
  | cons d run ih =>
      have hd : d.isLower = true := hrun d List.mem_cons_self
      have hkeeps : keepsCasing (c :: before)[1]? (c :: before)[0]? = true := by
        simp [keepsCasing, hc]
      rw [List.cons_append, camelChars, camelChar_of_isLower hd, hkeeps, if_pos rfl,
        ih (fun e he => hrun e (List.mem_cons_of_mem d he)) (isAlpha_of_isLower hd)]
      simp

namespace Segment

/-! ## Segments and characters before -/

/-- What the segment before tells of the characters before.  An underscore that is dropped ends
no segment, so before a lowercase letter the character that counts may be the second one. -/
structure Aligned (previous : Option Segment) (before rest : List Char) : Prop where
  lower : startsLower rest = true →
    previous.any isLiteralBreak = keepsCasing before[1]? before[0]?
  other : startsLower rest = false → previous.any isLiteralBreak = before[0]?.any isForeign

private theorem aligned_of_forall {s : Segment} {before left : List Char}
    (hkind : s.kind ≠ .separator) (hne : s.text ≠ [])
    (htext : ∀ d ∈ s.text, d.isDigit = true ∨ d.isAlpha = true ∧ startsLower left = false) :
    Aligned (some s) (s.text.reverse ++ before) left := by
  have hbreak : s.isLiteralBreak = false := by simp [isLiteralBreak, hkind]
  have hfirst : (s.text.reverse ++ before)[0]? = some (s.text.getLast hne) := by
    rw [← List.head?_eq_getElem?, List.head?_append, List.head?_reverse,
      List.getLast?_eq_some_getLast hne, Option.some_or]
  rcases htext _ (List.getLast_mem hne) with hd | ⟨hd, hleft⟩
  · have hforeign : isForeign (s.text.getLast hne) = false := by
      rw [isForeign, isWordChar_of_isDigit hd, Bool.not_true]
    constructor
    · intro _
      simp [hfirst, hbreak, keepsCasing, hforeign, isAlpha_eq_false_of_isDigit hd,
        ne_underscore_of_isDigit hd]
    · intro _
      simp [hfirst, hbreak, hforeign]
  · have hforeign : isForeign (s.text.getLast hne) = false := by
      rw [isForeign, isWordChar_of_isAlpha hd, Bool.not_true]
    constructor
    · intro hlower
      rw [hleft] at hlower
      cases hlower
    · intro _
      simp [hfirst, hbreak, hforeign]

/-- An underscore that is kept is not followed by a lowercase letter, but at the start. -/
theorem aligned_of_cut (before : List Char) {c : Char} {rest left : List Char} {s : Segment}
    (h : Cut (c :: rest) s left)
    (hc : c = '_' → startsLower rest = true → before = []) :
    Aligned (some s) (s.text.reverse ++ before) left := by
  generalize hcs : c :: rest = cs at h
  cases h with
  | digits hne hrun =>
      exact aligned_of_forall (by simp) hne fun d hd => .inl (hrun d hd)
  | acronym hne hrun hleft =>
      exact aligned_of_forall (by simp) hne fun d hd => .inr ⟨isAlpha_of_isUpper (hrun d hd), hleft⟩
  | word halpha hrun hleft =>
      refine aligned_of_forall (by simp) (by simp) fun d hd => .inr ⟨?_, hleft⟩
      rcases List.mem_cons.1 hd with rfl | hd
      · exact halpha
      · exact isAlpha_of_isLower (hrun d hd)
  | @separator d left hd =>
      obtain ⟨rfl, rfl⟩ := List.cons.inj hcs
      by_cases hunder : c = '_'
      · -- a lowercase letter after it would have dropped it, if anything were before
        subst hunder
        constructor
        · intro hlower
          rw [hc rfl hlower]
          rfl
        · intro _
          rfl
      · have hforeign : isForeign c = true := by
          simp [isForeign, isWordChar, hd, hunder]
        constructor
        · intro _
          simp [isLiteralBreak, keepsCasing, hforeign, hunder]
        · intro _
          simp [isLiteralBreak, hforeign, hunder]

theorem camel_append_camelChars {c : Char} {rest left before : List Char} {s : Segment}
    {previous : Option Segment} (h : Cut (c :: rest) s left)
    (haligned : Aligned previous before (c :: rest))
    (hc : c = '_' → previous.isSome = true ∧ before ≠ [] ∧ startsLower rest = false) :
    s.camel previous ++ camelChars (s.text.reverse ++ before) left =
      camelChars before (c :: rest) := by
  generalize hcs : c :: rest = cs at h haligned
  cases h with
  | digits hne hrun =>
      rw [camelChars_append_of_copied fun d hd => camelChar_of_isDigit (hrun d hd)]
      rfl
  | acronym hne hrun hleft =>
      rw [camelChars_append_of_copied fun d hd => camelChar_of_isUpper (hrun d hd)]
      rfl
  | @word d run left halpha hrun hleft =>
      rw [List.cons_append, camelChars, camelChars_append_of_lower hrun halpha]
      have hfirst : capitalized (d :: run) = d.toUpper :: run := rfl
      rcases Bool.or_eq_true_iff.1 halpha with hd | hd
      · have hsame : d.toUpper = d :=
          Char.toUpper_eq_of_not_isLower (by simp [isLower_eq_false_of_isUpper hd])
        simp [camel, camelChar_of_isUpper hd, hfirst, hsame]
      · have hkeeps := haligned.lower hd
        simp only [camel, camelChar_of_isLower hd, hfirst, hkeeps]
        split <;> simp
  | @separator d left hd =>
      obtain ⟨rfl, rfl⟩ := List.cons.inj hcs
      have hnot : c.isUpper = false ∧ c.isLower = false ∧ c.isDigit = false := by
        simpa [Char.isAlphanum, Char.isAlpha, and_assoc] using hd
      by_cases hunder : c = '_'
      · obtain ⟨hsome, hne, hlower⟩ := hc hunder
        rw [startsLower_eq] at hlower
        have hnone : before[0]?.isNone = false := by
          cases before with
          | nil => exact absurd rfl hne
          | cons b before => rfl
        subst hunder
        simp [camel, camelChars, camelChar, hlower, hnone, Option.isNone_eq_false_iff.2 hsome]
      · have hforeign : isForeign c = true := by
          simp [isForeign, isWordChar, hd, hunder]
        by_cases hdot : c = '.'
        · subst hdot
          simp [camel, camelChars, camelChar]
        · simp [camel, camelChars, camelChar, hunder, hdot, hnot, hforeign]

theorem camelAll_scan (rest : List Char) {previous : Option Segment} {before : List Char}
    (hprevious : previous.isSome = true) (hbefore : before ≠ [])
    (haligned : Aligned previous before rest) :
    camelAll previous (scan false rest) = camelChars before rest := by
  generalize hstart : false = atStart
  fun_induction scan atStart rest generalizing previous before with
  | case1 => rfl
  | case2 atStart c rest hdrop ih =>
      obtain ⟨⟨rfl, -⟩, hlower⟩ : (c = '_' ∧ atStart = false) ∧ startsLower rest = true := by
        simpa using hdrop
      -- the segment before stays the same, and the lowercase letter now sees it one further back
      have hdropped : Aligned previous ('_' :: before) rest := by
        constructor
        · intro _
          rw [haligned.other rfl]
          rfl
        · intro hother
          rw [hlower] at hother
          cases hother
      rw [ih hprevious (by simp) hdropped rfl, camelChars]
      simp [camelChar, ← startsLower_eq, hlower]
  | case3 atStart c rest hkeep ih =>
      have hlower (hc : c = '_') : startsLower rest = false := by
        simpa [← hstart, hc] using hkeep
      have hcut := cut_next c rest
      have hnext := aligned_of_cut before hcut fun hc h => by
        rw [hlower hc] at h
        cases h
      rw [camelAll, ih rfl (by simp [hbefore]) hnext rfl]
      exact camel_append_camelChars hcut haligned fun hc => ⟨hprevious, hbefore, hlower hc⟩

end Segment

/-! ## The conversion -/

/-- The first character stays a letter or stays none. -/
private theorem camelChar_first {c : Char} (hc : c ≠ '_') (next : Option Char) :
    ∃ d, camelChar none none c next = [d] ∧ d.isAlpha = c.isAlpha := by
  by_cases hlower : c.isLower = true
  · refine ⟨c.toUpper, by rw [camelChar_of_isLower hlower]; rfl, ?_⟩
    have hupper : c.toUpper.isUpper = true := by
      rw [Char.isUpper_toUpper_eq_isAlpha, isAlpha_of_isLower hlower]
    rw [isAlpha_of_isUpper hupper, isAlpha_of_isLower hlower]
  · by_cases hcopied : (c.isUpper || c.isDigit) = true
    · exact ⟨c, by rw [camelChar, if_neg hc, if_pos hcopied], rfl⟩
    · have hnot : c.isAlpha = false ∧ c.isDigit = false := by
        simpa [Char.isAlpha, hlower] using hcopied
      by_cases hdot : c = '.'
      · exact ⟨'.', by rw [camelChar, if_neg hc, if_neg hcopied, if_pos hdot], by rw [hdot]⟩
      · have hforeign : isForeign c = true := by
          simp [isForeign, isWordChar, Char.isAlphanum, hnot, hc]
        refine ⟨'_', by rw [camelChar, if_neg hc, if_neg hcopied, if_neg hdot, if_pos hforeign], ?_⟩
        rw [hnot.1]
        rfl

private theorem camelAll_scan_start {c : Char} (hc : c ≠ '_') (rest : List Char) :
    Segment.camelAll none (Segment.scan true (c :: rest)) = camelChars [] (c :: rest) := by
  have hcut := Segment.cut_next c rest
  have hstart : Segment.Aligned none [] (c :: rest) := ⟨fun _ => rfl, fun _ => rfl⟩
  have hnext := Segment.aligned_of_cut [] hcut fun h => absurd h hc
  have hne : (Segment.next c rest).1.text.reverse ++ [] ≠ [] := by
    simpa using hcut.text_ne_nil
  rw [Segment.scan, if_neg (by simp), Segment.camelAll, Segment.camelAll_scan _ rfl hne hnext]
  exact Segment.camel_append_camelChars hcut hstart fun h => absurd h hc

private theorem camelAll_scan_underscore (rest : List Char) :
    Segment.camelAll none (Segment.scan true ('_' :: rest)) = 'X' :: camelChars ['_'] rest := by
  have hcut : Segment.Cut ('_' :: rest) ⟨.separator, ['_']⟩ rest := .separator rfl
  have hnext := Segment.aligned_of_cut [] hcut fun _ _ => rfl
  have hfirst : Segment.next '_' rest = (⟨.separator, ['_']⟩, rest) := rfl
  rw [Segment.scan, if_neg (by simp), Segment.camelAll, hfirst,
    Segment.camelAll_scan _ rfl (List.cons_ne_nil '_' []) hnext]
  rfl

theorem withLeadingLetter_camelAll (cs : List Char) :
    withLeadingLetter (Segment.camelAll none (Segment.scan true cs)) =
      camelLead cs ++ camelChars [] cs := by
  cases cs with
  | nil => rw [Segment.scan]; rfl
  | cons c rest =>
      by_cases hc : c = '_'
      · subst hc
        rw [camelAll_scan_underscore]
        rfl
      · obtain ⟨d, hd, halpha⟩ := camelChar_first hc rest[0]?
        have hchars : camelChars [] (c :: rest) = d :: camelChars [c] rest := by
          rw [camelChars, List.getElem?_nil, List.getElem?_nil, hd]
          rfl
        rw [camelAll_scan_start hc, hchars, withLeadingLetter, halpha]
        cases hletter : c.isAlpha <;> simp [camelLead, hletter]

/-- The conversion of a name is the rule applied to each of its characters. -/
theorem upperCamel_eq_flatMap_camelAt (name : String) :
    (upperCamel name).text = String.ofList (camelLead name.toList ++
      (List.range name.toList.length).flatMap (camelAt name.toList)) := by
  rw [upperCamel, segments, withLeadingLetter_camelAll, camelChars_nil_eq_flatMap]

end StubNames
