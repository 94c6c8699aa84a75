import StubNames.Proofs.Casing.Boundary
/-!
# Segments as runs of positions

The scan of a name reads it from left to right and looks ahead as far as a run of characters goes.
Its segments are also the runs of another list: that of the positions whose characters are kept,
cut by `List.splitBy` between any two neighbours that do not belong together.  Which positions are
kept and which of them belong together is a matter of the characters around the place.
-/

namespace StubNames

/-! ## The rule -/

/-- An underscore after the first character is dropped if it introduces a lowercase letter. -/
def isDroppedAt (cs : List Char) (i : Nat) : Bool :=
  0 < i && cs[i]? == some '_' && cs[i + 1]?.any Char.isLower

def keptFrom (cs : List Char) (i : Nat) : List Nat :=
  (List.range' i (cs.length - i)).filter fun j => !isDroppedAt cs j

def charsAt (cs : List Char) (block : List Nat) : List Char :=
  block.filterMap fun i => cs[i]?

def segmentAt (cs : List Char) (block : List Nat) : Segment where
  kind := .of (charsAt cs block) (block.getLast?.bind fun i => cs[i + 1]?)
  text := charsAt cs block

def joinsAt (cs : List Char) (i j : Nat) : Bool :=
  j == i + 1 && cs[i]?.any fun c => cs[j]?.any fun d => joins c d cs[j + 1]?

/-! ## Positions -/

variable {cs : List Char} {i j : Nat}

theorem joinsAt_eq_true_iff : joinsAt cs i j = true ↔
    j = i + 1 ∧ ∃ c d, cs[i]? = some c ∧ cs[i + 1]? = some d ∧ joins c d cs[i + 2]? = true := by
  rw [joinsAt, Bool.and_eq_true, beq_iff_eq]
  constructor
  · rintro ⟨rfl, hany⟩
    obtain ⟨c, hc, hany⟩ := (Option.any_eq_true _ _).1 hany
    obtain ⟨d, hd, hjoins⟩ := (Option.any_eq_true _ _).1 hany
    exact ⟨rfl, c, d, hc, hd, hjoins⟩
  · rintro ⟨rfl, c, d, hc, hd, hjoins⟩
    exact ⟨rfl, by simp [hc, hd, hjoins]⟩

theorem isDroppedAt_iff : isDroppedAt cs i = true ↔
    0 < i ∧ cs[i]? = some '_' ∧ cs[i + 1]?.any Char.isLower = true := by
  simp [isDroppedAt, and_assoc]

theorem getElem?_of_drop {c : Char} {rest : List Char} (h : cs.drop i = c :: rest) :
    cs[i]? = some c := by
  rw [← Nat.add_zero i, ← List.getElem?_drop, h]
  rfl

theorem isDroppedAt_of_drop {c : Char} {rest : List Char} (h : cs.drop i = c :: rest) :
    isDroppedAt cs i = (c == '_' && !(i == 0) && Segment.startsLower rest) := by
  have hnext : cs[i + 1]? = rest[0]? := by
    rw [← List.getElem?_drop, h]
    rfl
  rw [isDroppedAt, getElem?_of_drop h, hnext, Segment.startsLower_eq,
    Bool.and_comm (decide (0 < i))]
  cases i <;> rfl

theorem mem_keptFrom_iff {k : Nat} :
    j ∈ keptFrom cs k ↔ k ≤ j ∧ j < cs.length ∧ isDroppedAt cs j = false := by
  rw [keptFrom, List.mem_filter, List.mem_range'_1, Bool.not_eq_true']
  constructor
  · rintro ⟨⟨hk, hlt⟩, hkept⟩
    exact ⟨hk, by omega, hkept⟩
  · rintro ⟨hk, hlt, hkept⟩
    exact ⟨⟨hk, by omega⟩, hkept⟩

theorem pairwise_keptFrom : (keptFrom cs i).Pairwise (· < ·) :=
  (List.pairwise_lt_range' (s := i) (n := cs.length - i)).filter _

theorem keptFrom_of_length_le (h : cs.length ≤ i) : keptFrom cs i = [] := by
  rw [keptFrom, Nat.sub_eq_zero_of_le h]
  rfl

/-- Kept positions in a row begin what is kept from there on. -/
theorem keptFrom_eq_append {n : Nat} (hn : i + n ≤ cs.length)
    (hkept : ∀ j < n, isDroppedAt cs (i + j) = false) :
    keptFrom cs i = List.range' i n ++ keptFrom cs (i + n) := by
  have hrun : (List.range' i n).filter (fun j => !isDroppedAt cs j) = List.range' i n := by
    rw [List.filter_eq_self]
    intro j hj
    obtain ⟨k, hk, rfl⟩ := List.mem_range'.1 hj
    simpa using hkept k hk
  have hlength : cs.length - i = n + (cs.length - (i + n)) := by omega
  rw [keptFrom, keptFrom, hlength, ← List.range'_append_1, List.filter_append, hrun]

theorem keptFrom_of_dropped (hdropped : isDroppedAt cs i = true) :
    keptFrom cs i = keptFrom cs (i + 1) := by
  have hlt : i < cs.length :=
    (List.getElem?_eq_some_iff.1 (isDroppedAt_iff.1 hdropped).2.1).1
  have hlength : cs.length - i = (cs.length - (i + 1)) + 1 := by omega
  rw [keptFrom, hlength, List.range'_succ, List.filter_cons_of_neg (by simp [hdropped])]
  rfl

theorem charsAt_range' {text left : List Char} (h : cs.drop i = text ++ left) :
    charsAt cs (List.range' i text.length) = text := by
  induction text generalizing i with
  | nil => rfl
  | cons c text ih =>
      have hc : cs[i]? = some c := getElem?_of_drop h
      have htail : cs.drop (i + 1) = text ++ left := by
        rw [← List.drop_drop, h]
        rfl
      rw [charsAt, List.length_cons, List.range'_succ, List.filterMap_cons, hc]
      exact congrArg (c :: ·) (ih htail)

/-! ## The segments of a name -/

namespace Segment

variable {left : List Char} {s : Segment}

theorem Cut.getElem?_add_length (hcut : Cut (cs.drop i) s left) (k : Nat) :
    cs[i + s.text.length + k]? = left[k]? := by
  rw [Nat.add_assoc, ← List.getElem?_drop, ← hcut.append_eq,
    List.getElem?_append_right (Nat.le_add_right _ _), Nat.add_sub_cancel_left]

theorem Cut.getElem?_add (hcut : Cut (cs.drop i) s left) {k : Nat}
    (hk : k < s.text.length) : cs[i + k]? = s.text[k]? := by
  rw [← List.getElem?_drop, ← hcut.append_eq, List.getElem?_append_left hk]

theorem Cut.segmentAt_eq (hcut : Cut (cs.drop i) s left) (hends : Ends s left) :
    segmentAt cs (List.range' i s.text.length) = s := by
  have hchars : charsAt cs (List.range' i s.text.length) = s.text :=
    charsAt_range' hcut.append_eq.symm
  have hpos : s.text.length ≠ 0 := by simpa using hcut.text_ne_nil
  have hnext : cs[i + s.text.length - 1 + 1]? = left[0]? := by
    rw [Nat.sub_add_cancel (by omega)]
    exact hcut.getElem?_add_length 0
  rw [segmentAt, hchars, List.getLast?_range', if_neg hpos, Option.bind_some, hnext,
    hcut.kind_eq hends]

theorem Cut.isChain_joinsAt (hcut : Cut (cs.drop i) s left) :
    (List.range' i s.text.length).IsChain fun j k => joinsAt cs j k = true := by
  rw [List.isChain_iff_getElem]
  intro k hk
  rw [List.length_range'] at hk
  have hjoins := hcut.joins_eq_true (List.getElem?_eq_getElem (Nat.lt_of_succ_lt hk))
    (List.getElem?_eq_getElem hk)
  rw [List.getElem?_drop] at hjoins
  rw [List.getElem_range', List.getElem_range', Nat.one_mul, Nat.one_mul, joinsAt_eq_true_iff]
  refine ⟨rfl, _, _, ?_, ?_, hjoins⟩
  · rw [hcut.getElem?_add (Nat.lt_of_succ_lt hk), List.getElem?_eq_getElem]
  · rw [Nat.add_assoc, hcut.getElem?_add hk, List.getElem?_eq_getElem]

/-- The last position of a segment joins no other. -/
theorem Cut.joinsAt_eq_false (hcut : Cut (cs.drop i) s left) (hends : Ends s left) {n : Nat}
    (hn : s.text.length = n + 1) (k : Nat) : joinsAt cs (i + n) k = false := by
  rw [Bool.eq_false_iff, Ne, joinsAt_eq_true_iff]
  rintro ⟨-, c, d, hc, hd, hjoins⟩
  have hclast : s.text.getLast? = some c := by
    rw [List.getLast?_eq_getElem?, hn, Nat.add_sub_cancel, ← hcut.getElem?_add (by omega), hc]
  have hdleft : left[0]? = some d := by
    rw [← hcut.getElem?_add_length 0, hn, ← hd]
    rfl
  have hnext : cs[i + n + 2]? = left[1]? := by
    rw [← hcut.getElem?_add_length 1, hn]
    rfl
  rw [hnext, hends.joins_eq_false hcut hclast hdleft] at hjoins
  cases hjoins

/-- The positions of a segment are a run, and nothing after them belongs to it. -/
theorem Cut.splitBy_eq (hcut : Cut (cs.drop i) s left) (hends : Ends s left) :
    (List.range' i s.text.length ++ keptFrom cs (i + s.text.length)).splitBy (joinsAt cs) =
      List.range' i s.text.length :: (keptFrom cs (i + s.text.length)).splitBy (joinsAt cs) := by
  obtain ⟨n, hn⟩ : ∃ n, s.text.length = n + 1 :=
    Nat.exists_eq_succ_of_ne_zero (by simpa using hcut.text_ne_nil)
  have hne : List.range' i s.text.length ≠ [] := by simp [hn]
  rw [List.splitBy_append, List.splitBy_of_isChain hne hcut.isChain_joinsAt]
  · rfl
  · intro j hj k hk
    rw [List.getLast?_range', if_neg (by omega), Option.mem_some_iff] at hj
    obtain rfl : i + n = j := by omega
    exact hcut.joinsAt_eq_false hends hn k

/-- Nothing behind the first character of a segment is dropped. -/
theorem Cut.isDroppedAt_eq_false (hcut : Cut (cs.drop i) s left)
    (hfirst : isDroppedAt cs i = false) {j : Nat} (hj : j < s.text.length) :
    isDroppedAt cs (i + j) = false := by
  by_contra hdropped
  obtain ⟨-, hunder, -⟩ := isDroppedAt_iff.1 (Bool.not_eq_false _ ▸ hdropped)
  rw [hcut.getElem?_add hj] at hunder
  obtain rfl : j = 0 := hcut.eq_zero_of_underscore hunder
  exact hdropped hfirst

theorem Cut.add_length_le (hcut : Cut (cs.drop i) s left) :
    i + s.text.length ≤ cs.length := by
  have hpos : s.text.length ≠ 0 := by simpa using hcut.text_ne_nil
  have hsum := congrArg List.length hcut.append_eq
  rw [List.length_append, List.length_drop] at hsum
  omega

/-- The scan finds the segments that the rule makes of the positions that are left. -/
theorem scan_eq_map_splitBy {rest : List Char} (hrest : cs.drop i = rest) :
    scan (i == 0) rest = ((keptFrom cs i).splitBy (joinsAt cs)).map (segmentAt cs) := by
  generalize hstart : (i == 0) = atStart
  fun_induction scan atStart rest generalizing i with
  | case1 =>
      rw [keptFrom_of_length_le (by simpa using hrest)]
      rfl
  | case2 atStart c rest hdrop ih =>
      have hnext : cs.drop (i + 1) = rest := by
        rw [← List.drop_drop, hrest]
        rfl
      have hdropped : isDroppedAt cs i = true := by rw [isDroppedAt_of_drop hrest, hstart, hdrop]
      rw [keptFrom_of_dropped hdropped]
      exact ih hnext rfl
  | case3 atStart c rest hkeep ih =>
      have hfirst : isDroppedAt cs i = false := by
        rw [isDroppedAt_of_drop hrest, hstart, Bool.eq_false_iff]
        exact hkeep
      have hcut : Cut (cs.drop i) (next c rest).1 (next c rest).2 := hrest ▸ cut_next c rest
      have hends := ends_next c rest
      generalize (next c rest).1 = s at *
      generalize (next c rest).2 = left at *
      have hpos : s.text.length ≠ 0 := by simpa using hcut.text_ne_nil
      have hleft : cs.drop (i + s.text.length) = left := by
        rw [← List.drop_drop, ← hcut.append_eq, List.drop_left]
      rw [keptFrom_eq_append hcut.add_length_le fun j hj => hcut.isDroppedAt_eq_false hfirst hj,
        hcut.splitBy_eq hends, List.map_cons, hcut.segmentAt_eq hends,
        ih hleft (beq_eq_false_iff_ne.2 (by omega))]

end Segment

end StubNames
