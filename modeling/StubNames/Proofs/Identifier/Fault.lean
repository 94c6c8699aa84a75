import StubNames.Proofs.Identifier.Grammar
/-!
# The first fault of a text

A check accepts a text or names its first fault, and which of the two it does can be read off the
text.  The two grammars differ in the dot alone: on a text without one they give the same answer,
and a text that is read with one is dotted and not plain.
-/

namespace StubNames

def InWord (c : Char) : Prop :=
  c.isAlpha = true ∨ c.isDigit = true ∨ c = '_'

/-- The first character outside an alphabet stands at an index, which counts characters. -/
structure FirstOutside (alphabet : Char → Prop) (cs : List Char) (ch : Char) (index : Nat) :
    Prop where
  getElem?_eq : cs[index]? = some ch
  outside : ¬alphabet ch
  earlier : ∀ i < index, ∀ c, cs[i]? = some c → alphabet c

theorem isWordChar_eq_true_iff {c : Char} : isWordChar c = true ↔ InWord c := by
  simp [isWordChar, Char.isAlphanum, InWord, or_assoc]

/-! ## The search for a foreign character -/

section

variable {allowed allowed' : Char → Bool} {alphabet : Char → Prop} {cs : List Char} {ch c : Char}
  {index : Nat}

theorem firstForeign_eq_some_iff (h : ∀ c, allowed c = true ↔ alphabet c) :
    firstForeign allowed cs = some (ch, index) ↔ FirstOutside alphabet cs ch index := by
  rw [firstForeign, List.find?_eq_some_iff_getElem]
  constructor
  · rintro ⟨hforeign, i, hi, hpair, hearlier⟩
    rw [List.getElem_zipIdx, Nat.zero_add] at hpair
    obtain ⟨rfl, rfl⟩ := Prod.mk.inj hpair
    have hlt : i < cs.length := by simpa using hi
    refine ⟨List.getElem?_eq_getElem hlt, by simpa [← h] using hforeign, fun j hj c hc => ?_⟩
    obtain ⟨hjlt, rfl⟩ := List.getElem?_eq_some_iff.1 hc
    simpa [← h] using hearlier j hj
  · rintro ⟨hch, houtside, hearlier⟩
    obtain ⟨hlt, rfl⟩ := List.getElem?_eq_some_iff.1 hch
    refine ⟨by simpa [← h] using houtside, index, by simpa using hlt, by simp, fun j hj => ?_⟩
    have hjlt : j < cs.length := Nat.lt_trans hj hlt
    simpa [← h] using hearlier j hj cs[j] (List.getElem?_eq_getElem hjlt)

/-- The search only asks about the characters that are there. -/
theorem firstForeign_congr (h : ∀ c ∈ cs, allowed c = allowed' c) :
    firstForeign allowed cs = firstForeign allowed' cs := by
  rw [firstForeign, firstForeign, ← List.head?_filter, ← List.head?_filter]
  refine congrArg List.head? (List.filter_congr fun p hp => ?_)
  rw [h p.1 (List.fst_mem_of_mem_zipIdx hp)]

/-- A character of the alphabet in front moves the first foreign one by a place. -/
theorem firstOutside_cons_succ_iff (hc : alphabet c) :
    FirstOutside alphabet (c :: cs) ch (index + 1) ↔ FirstOutside alphabet cs ch index := by
  constructor
  · rintro ⟨hch, houtside, hearlier⟩
    exact ⟨hch, houtside, fun i hi d hd => hearlier (i + 1) (Nat.succ_lt_succ hi) d hd⟩
  · rintro ⟨hch, houtside, hearlier⟩
    refine ⟨hch, houtside, fun i hi d hd => ?_⟩
    cases i with
    | zero =>
        cases hd
        exact hc
    | succ i => exact hearlier i (Nat.lt_of_succ_lt_succ hi) d hd

end

namespace Identifier

namespace Grammar

variable {g : Grammar} {s : String} {c : Char} {cs : List Char} {e : IdentifierError}

def Start (c : Char) : Prop :=
  c.isAlpha = true ∨ c = '_'

/-- The characters that may come later: the dotted grammar has one more. -/
def Alphabet (g : Grammar) (c : Char) : Prop :=
  InWord c ∨ g = .dotted ∧ c = '.'

def Legal (g : Grammar) (s : String) : Prop :=
  ∃ c cs, s.toList = c :: cs ∧ Start c ∧ ∀ d ∈ cs, g.Alphabet d

/-- Why a text is not in a grammar: the fault that comes first in the text. -/
inductive Refusal (g : Grammar) (s : String) : IdentifierError → Prop where
  | empty (hs : s = "") : Refusal g s .empty
  | invalidStart {ch : Char} (hhead : s.toList.head? = some ch) (hstart : ¬Start ch) :
      Refusal g s (.invalidStart ch)
  | invalidChar {c ch : Char} {index : Nat} (hhead : s.toList.head? = some c) (hstart : Start c)
      (hindex : 1 ≤ index) (hfirst : FirstOutside g.Alphabet s.toList ch index) :
      Refusal g s (.invalidChar ch index)

/-! ## The check -/

theorem continues_eq_true_iff : g.continues c = true ↔ g.Alphabet c := by
  simp [continues, Alphabet, isWordChar_eq_true_iff]

theorem Start.alphabet (h : Start c) : g.Alphabet c := by
  rcases h with halpha | hunder
  · exact .inl (.inl halpha)
  · exact .inl (.inr (.inr hunder))

theorem fault?_eq_none_iff_legal : g.fault? s = none ↔ g.Legal s := by
  simp only [fault?_eq_none_iff, isStart_iff, continues_eq_true_iff, Legal, Start]

theorem fault?_of_start (hs : s.toList = c :: cs) (hstart : Start c) :
    g.fault? s = (firstForeign g.continues cs).map fun p => .invalidChar p.1 (p.2 + 1) := by
  unfold fault?
  rw [hs]
  exact if_pos (isStart_iff.2 hstart)

theorem fault?_of_not_start (hs : s.toList = c :: cs) (hstart : ¬Start c) :
    g.fault? s = some (.invalidStart c) := by
  unfold fault?
  rw [hs]
  exact if_neg (mt isStart_iff.1 hstart)

theorem refusal_of_fault? (h : g.fault? s = some e) : g.Refusal s e := by
  cases hs : s.toList with
  | nil =>
      obtain rfl : s = "" := String.toList_eq_nil_iff.1 hs
      cases h
      exact .empty rfl
  | cons c cs =>
      have hhead : s.toList.head? = some c := by rw [hs]; rfl
      by_cases hstart : Start c
      · rw [fault?_of_start hs hstart] at h
        obtain ⟨⟨ch, index⟩, hforeign, rfl⟩ := Option.map_eq_some_iff.1 h
        have hfirst : FirstOutside g.Alphabet cs ch index :=
          (firstForeign_eq_some_iff fun _ => continues_eq_true_iff).1 hforeign
        refine .invalidChar hhead hstart (Nat.le_add_left 1 index) ?_
        rw [hs]
        exact (firstOutside_cons_succ_iff hstart.alphabet).2 hfirst
      · rw [fault?_of_not_start hs hstart] at h
        cases h
        exact .invalidStart hhead hstart

theorem Refusal.fault?_eq (h : g.Refusal s e) : g.fault? s = some e := by
  cases h with
  | empty hs =>
      rw [hs]
      rfl
  | invalidStart hhead hstart =>
      obtain ⟨cs, hs⟩ := List.head?_eq_some_iff.1 hhead
      exact fault?_of_not_start hs hstart
  | @invalidChar c ch index hhead hstart hindex hfirst =>
      obtain ⟨cs, hs⟩ := List.head?_eq_some_iff.1 hhead
      obtain ⟨i, rfl⟩ := Nat.exists_eq_add_of_le' hindex
      rw [hs, firstOutside_cons_succ_iff hstart.alphabet] at hfirst
      have hforeign : firstForeign g.continues cs = some (ch, i) :=
        (firstForeign_eq_some_iff fun _ => continues_eq_true_iff).2 hfirst
      rw [fault?_of_start hs hstart, hforeign]
      rfl

/-- There is one fault that comes first. -/
theorem fault?_eq_some_iff : g.fault? s = some e ↔ g.Refusal s e :=
  ⟨refusal_of_fault?, Refusal.fault?_eq⟩

/-- Without a dot in the text it is no matter whether one would be taken. -/
theorem fault?_eq_fault?_of_dot_notMem (g g' : Grammar) (hdot : '.' ∉ s.toList) :
    g.fault? s = g'.fault? s := by
  cases hs : s.toList with
  | nil =>
      obtain rfl : s = "" := String.toList_eq_nil_iff.1 hs
      rfl
  | cons c cs =>
      by_cases hstart : Start c
      · have hcontinues : ∀ d ∈ cs, g.continues d = g'.continues d := by
          intro d hd
          have hne : d ≠ '.' := by
            rintro rfl
            exact hdot (hs ▸ List.mem_cons_of_mem c hd)
          simp [continues, beq_eq_false_iff_ne.2 hne]
        rw [fault?_of_start hs hstart, fault?_of_start hs hstart, firstForeign_congr hcontinues]
      · rw [fault?_of_not_start hs hstart, fault?_of_not_start hs hstart]

end Grammar

/-! ## The two grammars -/

variable {s : String} {n : Identifier}

theorem parse_eq_ok_iff_isPlain : parse s = .ok n ↔ isPlain s = true ∧ n = ⟨s⟩ := by
  rw [parse, Grammar.read_eq_ok_iff, isPlain, Option.isNone_iff_eq_none]

theorem parseDotted_eq_ok_iff : parseDotted s = .ok n ↔ IsDotted s ∧ n = ⟨s⟩ := by
  rw [parseDotted, Grammar.read_eq_ok_iff, fault?_dotted_eq_none_iff]

theorem parseDotted_of_parse (h : parse s = .ok n) : parseDotted s = .ok n := by
  obtain ⟨hplain, hn⟩ := parse_eq_ok_iff_isPlain.1 h
  exact parseDotted_eq_ok_iff.2 ⟨(isPlain_iff.1 hplain).1, hn⟩

theorem parse_eq_parseDotted_of_dot_notMem (hdot : '.' ∉ s.toList) : parse s = parseDotted s := by
  rw [parse, parseDotted, Grammar.read, Grammar.read,
    Grammar.fault?_eq_fault?_of_dot_notMem .plain .dotted hdot]

theorem isPlain_iff_of_parseDotted (h : parseDotted s = .ok n) :
    isPlain n.text = true ↔ '.' ∉ n.text.toList := by
  obtain ⟨hdotted, rfl⟩ := parseDotted_eq_ok_iff.1 h
  rw [isPlain_iff]
  exact and_iff_right hdotted

/-- Reading a text in a grammar gives the text itself if it is in the grammar, and otherwise its
first fault.  What is plain is read in the dotted grammar as well and gives the same, the two
grammars answer alike where there is no dot, and of what is dotted just the texts without a dot are
plain. -/
theorem read_exact :
    (∀ (g : Grammar) (s : String),
      (∀ n, g.read s = .ok n ↔ n.text = s ∧ g.Legal s) ∧
      ∀ e, g.read s = .error e ↔ g.Refusal s e) ∧
    (∀ s, isPlain s = true ↔ ∃ n, parse s = .ok n) ∧
    (∀ s n, parse s = .ok n → parseDotted s = .ok n) ∧
    (∀ s : String, '.' ∉ s.toList → parse s = parseDotted s) ∧
    ∀ s n, parseDotted s = .ok n → (isPlain n.text = true ↔ '.' ∉ n.text.toList) := by
  refine ⟨fun g s => ⟨fun n => ?_, fun e => ?_⟩, fun s => ?_, fun s n => parseDotted_of_parse,
    fun s => parse_eq_parseDotted_of_dot_notMem, fun s n => isPlain_iff_of_parseDotted⟩
  · rw [Grammar.read_eq_ok_iff, Grammar.fault?_eq_none_iff_legal]
    constructor
    · rintro ⟨hlegal, rfl⟩
      exact ⟨rfl, hlegal⟩
    · rintro ⟨rfl, hlegal⟩
      exact ⟨hlegal, rfl⟩
  · rw [Grammar.read_eq_error_iff, Grammar.fault?_eq_some_iff]
  · simp [parse_eq_ok_iff_isPlain]

/-- A plain identifier, a text without a dot that no grammar takes, and a dotted identifier. -/
theorem read_exact_my_field :
    parse "_x1" = .ok ⟨"_x1"⟩ ∧ parseDotted "_x1" = .ok ⟨"_x1"⟩ ∧
      '.' ∉ "naïve".toList ∧ parseDotted "naïve" = .error (.invalidChar 'ï' 2) ∧
      parseDotted "my.field" = .ok ⟨"my.field"⟩ ∧ ¬isPlain "my.field" = true := by
  obtain ⟨-, -, hdotted, hsame, hplain⟩ := read_exact
  have hx1 : parse "_x1" = .ok ⟨"_x1"⟩ := rfl
  have hnaive : parse "naïve" = .error (.invalidChar 'ï' 2) := rfl
  have hdot : '.' ∉ "naïve".toList := by decide +kernel
  have hfield : parseDotted "my.field" = .ok ⟨"my.field"⟩ := rfl
  refine ⟨hx1, hdotted _ _ hx1, hdot, ?_, hfield, fun h => ?_⟩
  · rw [← hsame _ hdot]
    exact hnaive
  · exact absurd ((hplain _ _ hfield).1 h) (by decide +kernel)

end Identifier

end StubNames
