import StubNames.Proofs.Casing.Runs
/-!
# The local rule of cutting

A rule for all places of a name says which underscores are dropped and which neighbours belong
together.  There is exactly one way to divide a name that obeys it, and the segments of the name
are its parts.
-/

namespace StubNames

def Together (blocks : List (List Nat)) (i j : Nat) : Prop :=
  ∃ block ∈ blocks, i ∈ block ∧ j ∈ block

/-! ## Neighbours in lists of blocks -/

theorem pair_isInfix_append {α : Type} {x y : α} {l m : List α} (h : [x, y] <:+: l ++ m) :
    [x, y] <:+: l ∨ [x, y] <:+: m ∨ (l.getLast? = some x ∧ m.head? = some y) := by
  rcases List.infix_append_iff.1 h with hl | hm | ⟨front, back, hpair, hfront, hback⟩
  · exact .inl hl
  · exact .inr (.inl hm)
  · rcases front with _ | ⟨a, _ | ⟨b, front⟩⟩
    · rw [List.nil_append] at hpair
      exact .inr (.inl (hpair ▸ hback.isInfix))
    · obtain ⟨rfl, rfl⟩ : x = a ∧ [y] = back := by simpa using hpair
      obtain ⟨u, rfl⟩ := hfront
      obtain ⟨v, rfl⟩ := hback
      exact .inr (.inr ⟨by simp, rfl⟩)
    · obtain ⟨rfl, rfl, rfl, -⟩ : x = a ∧ y = b ∧ front = [] ∧ back = [] := by simpa using hpair
      exact .inl hfront.isInfix

/-- Neighbours in the elements of all blocks are neighbours in one block or end one block and begin
the next. -/
theorem exists_of_pair_isInfix_flatten {α : Type} {x y : α} {blocks : List (List α)}
    (hne : [] ∉ blocks) (h : [x, y] <:+: blocks.flatten) :
    (∃ block ∈ blocks, [x, y] <:+: block) ∨
      ∃ a b, [a, b] <:+: blocks ∧ a.getLast? = some x ∧ b.head? = some y := by
  induction blocks with
  | nil => simp at h
  | cons block blocks ih =>
      rw [List.flatten_cons] at h
      rcases pair_isInfix_append h with hblock | hrest | ⟨hx, hy⟩
      · exact .inl ⟨block, List.mem_cons_self, hblock⟩
      · rcases ih (fun hmem => hne (List.mem_cons_of_mem _ hmem)) hrest with
          ⟨b, hb, hpair⟩ | ⟨a, b, hpair, hends⟩
        · exact .inl ⟨b, List.mem_cons_of_mem _ hb, hpair⟩
        · exact .inr ⟨a, b, List.infix_cons hpair, hends⟩
      · cases blocks with
        | nil => cases hy
        | cons b blocks =>
            have hb : b ≠ [] := by
              rintro rfl
              exact hne (by simp)
            rw [List.flatten_cons, List.head?_append_of_ne_nil _ hb] at hy
            exact .inr ⟨block, b, ⟨[], blocks, rfl⟩, hx, hy⟩

theorem pair_isInfix_flatten {α : Type} {x y : α} {a b : List α} {blocks : List (List α)}
    (h : [a ++ [x], y :: b] <:+: blocks) : [x, y] <:+: blocks.flatten := by
  obtain ⟨front, back, rfl⟩ := h
  exact ⟨front.flatten ++ a, b ++ back.flatten, by simp⟩

theorem not_together_of_pair_isInfix {x y : Nat} {a b : List Nat} {blocks : List (List Nat)}
    (hnodup : blocks.flatten.Nodup) (h : [a ++ [x], y :: b] <:+: blocks) :
    ¬Together blocks x y := by
  obtain ⟨-, hdisjoint⟩ := List.nodup_flatten.1 hnodup
  rintro ⟨block, hblock, hx, hy⟩
  have hpair : (a ++ [x]).Disjoint (y :: b) :=
    List.rel_of_pairwise_cons (hdisjoint.sublist h.sublist) List.mem_cons_self
  have : Std.Symm (List.Disjoint (α := Nat)) := ⟨fun _ _ hdisjoint => hdisjoint.symm⟩
  have hsame : block = a ++ [x] := by
    by_contra hne
    exact hdisjoint.forall hblock (h.subset List.mem_cons_self) hne hx (by simp)
  exact hpair (hsame ▸ hy) List.mem_cons_self

theorem isInfix_flatten_of_mem {α : Type} {block : List α} {blocks : List (List α)}
    (h : block ∈ blocks) : block <:+: blocks.flatten := by
  obtain ⟨front, back, rfl⟩ := List.mem_iff_append.1 h
  exact ⟨front.flatten, back.flatten, by simp⟩

theorem le_of_pair_isInfix {l : List Nat} (hl : l.Pairwise (· < ·)) {x y z : Nat}
    (h : [x, y] <:+: l) (hz : z ∈ l) (hlt : x < z) : y ≤ z := by
  obtain ⟨front, back, rfl⟩ := h
  obtain ⟨hfront, -, hback⟩ := List.pairwise_append.1 hl
  rcases List.mem_append.1 hz with hz | hz
  · rcases List.mem_append.1 hz with hz | hz
    · have hzx := (List.pairwise_append.1 hfront).2.2 z hz x List.mem_cons_self
      omega
    · rcases List.mem_pair.1 hz with rfl | rfl
      · exact absurd hlt (Nat.lt_irrefl _)
      · exact Nat.le_refl _
  · exact Nat.le_of_lt (hback y (by simp) z hz)

theorem pair_isInfix_of_mem {l : List Nat} (hl : l.Pairwise (· < ·)) {x : Nat} (hx : x ∈ l)
    (hsucc : x + 1 ∈ l) : [x, x + 1] <:+: l := by
  obtain ⟨front, back, rfl⟩ := List.mem_iff_append.1 hx
  obtain ⟨-, hback, hcross⟩ := List.pairwise_append.1 hl
  have hbehind : x + 1 ∈ back := by
    rcases List.mem_append.1 hsucc with hfront | hrest
    · have hlt := hcross _ hfront x List.mem_cons_self
      omega
    · simpa using hrest
  cases back with
  | nil => cases hbehind
  | cons y back =>
      have hpair : [x, y] <:+: front ++ x :: y :: back := ⟨front, back, by simp⟩
      have hle := le_of_pair_isInfix hl hpair hsucc (Nat.lt_succ_self x)
      have hlt : x < y := List.rel_of_pairwise_cons hback List.mem_cons_self
      obtain rfl : y = x + 1 := by omega
      exact hpair

/-! ## Divisions of a name -/

/-- A division of the kept positions of a name into blocks that obeys the rule at every place:
neighbours are together if they join, and a dropped underscore separates. -/
structure IsCutting (cs : List Char) (blocks : List (List Nat)) : Prop where
  flatten : blocks.flatten = keptFrom cs 0
  nil_notMem : [] ∉ blocks
  together_iff : ∀ i c d, cs[i]? = some c → cs[i + 1]? = some d →
    isDroppedAt cs i = false → isDroppedAt cs (i + 1) = false →
    (Together blocks i (i + 1) ↔ joins c d cs[i + 2]? = true)
  apart : ∀ i, isDroppedAt cs (i + 1) = true → ¬Together blocks i (i + 2)

variable {cs : List Char} {blocks : List (List Nat)} {i j : Nat}

/-- What is kept right after a position: the next one, or the one behind a dropped underscore. -/
theorem eq_of_pair_isInfix_keptFrom (h : [i, j] <:+: keptFrom cs 0) :
    isDroppedAt cs (i + 1) = false ∧ j = i + 1 ∨ isDroppedAt cs (i + 1) = true ∧ j = i + 2 := by
  have hj : j ∈ keptFrom cs 0 := h.subset (by simp)
  obtain ⟨-, hjlength, hjkept⟩ := mem_keptFrom_iff.1 hj
  have hlt : i < j := List.rel_of_pairwise_cons (pairwise_keptFrom.sublist h.sublist) (by simp)
  have hle {k : Nat} (hk : k ∈ keptFrom cs 0) (hik : i < k) : j ≤ k :=
    le_of_pair_isInfix pairwise_keptFrom h hk hik
  cases hdropped : isDroppedAt cs (i + 1) with
  | false =>
      have hle := hle (mem_keptFrom_iff.2 ⟨Nat.zero_le _, by omega, hdropped⟩) (Nat.lt_succ_self i)
      exact .inl ⟨rfl, by omega⟩
  | true =>
      -- the character behind the underscore is a lowercase letter, so it is kept
      obtain ⟨d, hd, hlower⟩ := (Option.any_eq_true _ _).1 (isDroppedAt_iff.1 hdropped).2.2
      have hkept : isDroppedAt cs (i + 2) = false := by
        rw [Bool.eq_false_iff, Ne, isDroppedAt_iff, hd, Option.some.injEq]
        rintro ⟨-, rfl, -⟩
        cases hlower
      have hlength : i + 2 < cs.length := (List.getElem?_eq_some_iff.1 hd).1
      have hle := hle (mem_keptFrom_iff.2 ⟨Nat.zero_le _, hlength, hkept⟩) (by omega)
      have hne : j ≠ i + 1 := by
        rintro rfl
        rw [hdropped] at hjkept
        cases hjkept
      exact .inr ⟨rfl, by omega⟩

theorem IsCutting.together_iff_joinsAt (h : IsCutting cs blocks)
    (hpair : [i, i + 1] <:+: keptFrom cs 0) :
    Together blocks i (i + 1) ↔ joinsAt cs i (i + 1) = true := by
  have hi : i ∈ keptFrom cs 0 := hpair.subset (by simp)
  have hsucc : i + 1 ∈ keptFrom cs 0 := hpair.subset (by simp)
  obtain ⟨-, hilength, hikept⟩ := mem_keptFrom_iff.1 hi
  obtain ⟨-, hlength, hkept⟩ := mem_keptFrom_iff.1 hsucc
  have hc := List.getElem?_eq_getElem hilength
  have hd := List.getElem?_eq_getElem hlength
  rw [h.together_iff i _ _ hc hd hikept hkept]
  simp [joinsAt, hc, hd]

/-! ## The division into runs -/

/-- Two positions in one run: the first of them and the next position belong together. -/
theorem joinsAt_of_together (h : Together ((keptFrom cs 0).splitBy (joinsAt cs)) i j)
    (hlt : i < j) : i + 1 ∈ keptFrom cs 0 ∧ joinsAt cs i (i + 1) = true := by
  obtain ⟨block, hblock, hi, hj⟩ := h
  have hwithin : block <:+: keptFrom cs 0 := by
    have hflatten := isInfix_flatten_of_mem hblock
    rwa [List.flatten_splitBy] at hflatten
  obtain ⟨front, back, rfl⟩ := List.mem_iff_append.1 hi
  have hsorted := pairwise_keptFrom.sublist hwithin.sublist
  cases back with
  | nil =>
      -- nothing in the run comes behind its last position
      rcases List.mem_append.1 hj with hfront | hlast
      · have hji := (List.pairwise_append.1 hsorted).2.2 j hfront i List.mem_cons_self
        omega
      · rw [List.mem_singleton] at hlast
        omega
  | cons k back =>
      have hpair : [i, k] <:+: front ++ i :: k :: back := ⟨front, back, by simp⟩
      have hchain := List.IsChain.infix (List.isChain_of_mem_splitBy hblock) hpair
      have hjoins : joinsAt cs i k = true := by simpa using hchain
      obtain ⟨rfl, -⟩ := joinsAt_eq_true_iff.1 hjoins
      exact ⟨hwithin.subset (by simp), hjoins⟩

theorem isCutting_splitBy (cs : List Char) :
    IsCutting cs ((keptFrom cs 0).splitBy (joinsAt cs)) where
  flatten := List.flatten_splitBy _ _
  nil_notMem := List.nil_notMem_splitBy _ _
  together_iff i c d hc hd hikept hkept := by
    have hjoinsAt : joinsAt cs i (i + 1) = joins c d cs[i + 2]? := by
      simp [joinsAt, hc, hd]
    rw [← hjoinsAt]
    constructor
    · intro h
      exact (joinsAt_of_together h (Nat.lt_succ_self i)).2
    · intro hjoins
      have hlength : i + 1 < cs.length := (List.getElem?_eq_some_iff.1 hd).1
      have hpair : [i, i + 1] <:+: ((keptFrom cs 0).splitBy (joinsAt cs)).flatten := by
        rw [List.flatten_splitBy]
        apply pair_isInfix_of_mem pairwise_keptFrom
        · exact mem_keptFrom_iff.2 ⟨Nat.zero_le _, by omega, hikept⟩
        · exact mem_keptFrom_iff.2 ⟨Nat.zero_le _, hlength, hkept⟩
      rcases exists_of_pair_isInfix_flatten (List.nil_notMem_splitBy _ _) hpair with
        ⟨block, hblock, hpair⟩ | ⟨a, b, hpair, hlast, hhead⟩
      · exact ⟨block, hblock, hpair.subset (by simp), hpair.subset (by simp)⟩
      · have hends := List.isChain_getLast_head_splitBy (joinsAt cs) (keptFrom cs 0)
        have hchain := List.IsChain.infix hends hpair
        obtain ⟨ha, hb, hnot⟩ := List.isChain_pair.1 hchain
        rw [List.getLast?_eq_some_getLast ha, Option.some.injEq] at hlast
        rw [List.head?_eq_some_head hb, Option.some.injEq] at hhead
        rw [hlast, hhead, hjoins] at hnot
        cases hnot
  apart i hdropped h := by
    have hmem := (joinsAt_of_together h (by omega)).1
    rw [mem_keptFrom_iff, hdropped] at hmem
    cases hmem.2.2

/-- No other division obeys the rule. -/
theorem IsCutting.splitBy_eq (h : IsCutting cs blocks) :
    (keptFrom cs 0).splitBy (joinsAt cs) = blocks := by
  have hkept {x y : Nat} (hpair : [x, y] <:+: blocks.flatten) : [x, y] <:+: keptFrom cs 0 := by
    rwa [h.flatten] at hpair
  rw [List.splitBy_eq_iff]
  refine ⟨h.flatten.symm, h.nil_notMem, fun block hblock => ?_, ?_⟩
  · apply (List.isChain_isInfix block).imp
    intro x y hpair
    have htogether : Together blocks x y :=
      ⟨block, hblock, hpair.subset (by simp), hpair.subset (by simp)⟩
    have hneighbours := hkept (hpair.trans (isInfix_flatten_of_mem hblock))
    rcases eq_of_pair_isInfix_keptFrom hneighbours with ⟨-, rfl⟩ | ⟨hdropped, rfl⟩
    · exact (h.together_iff_joinsAt hneighbours).1 htogether
    · exact absurd htogether (h.apart x hdropped)
  · apply (List.isChain_isInfix blocks).imp
    intro a b hpair
    have ha : a ≠ [] := ne_of_mem_of_not_mem (hpair.subset (by simp)) h.nil_notMem
    have hb : b ≠ [] := ne_of_mem_of_not_mem (hpair.subset (by simp)) h.nil_notMem
    refine ⟨ha, hb, ?_⟩
    obtain ⟨a, x, rfl⟩ := (List.eq_nil_or_concat a).resolve_left ha
    obtain ⟨y, b, rfl⟩ := List.exists_cons_of_ne_nil hb
    simp only [List.concat_eq_append, List.getLast_append_singleton, List.head_cons] at hpair ⊢
    rw [Bool.eq_false_iff]
    intro hjoins
    obtain ⟨rfl, -⟩ := joinsAt_eq_true_iff.1 hjoins
    have hnodup : blocks.flatten.Nodup := by
      rw [h.flatten]
      exact pairwise_keptFrom.imp Nat.ne_of_lt
    apply not_together_of_pair_isInfix hnodup hpair
    exact (h.together_iff_joinsAt (hkept (pair_isInfix_flatten hpair))).2 hjoins

/-! ## The segments of a name -/

theorem segments_eq_map_splitBy (name : String) : segments name =
    ((keptFrom name.toList 0).splitBy (joinsAt name.toList)).map (segmentAt name.toList) :=
  Segment.scan_eq_map_splitBy List.drop_zero

example : (keptFrom "myPDFs_2_go".toList 0).splitBy (joinsAt "myPDFs_2_go".toList) =
    [[0, 1], [2, 3], [4, 5], [6], [7], [9, 10]] := by
  decide

theorem flatMap_text_map_segmentAt (cs : List Char) (blocks : List (List Nat)) :
    (blocks.map (segmentAt cs)).flatMap Segment.text = charsAt cs blocks.flatten := by
  rw [List.flatMap_map, charsAt, List.filterMap_flatten]
  rfl

theorem exists_cut_of_mem_scan {atStart : Bool} {rest : List Char} {s : Segment}
    (hs : s ∈ Segment.scan atStart rest) : ∃ cs left, Segment.Cut cs s left := by
  fun_induction Segment.scan atStart rest with
  | case1 => cases hs
  | case2 atStart c rest hdrop ih => exact ih hs
  | case3 atStart c rest hkeep ih =>
      rcases List.mem_cons.1 hs with rfl | hs
      · exact ⟨c :: rest, _, Segment.cut_next c rest⟩
      · exact ih hs

/-- The segments of a name are the parts of the only division of its kept characters that obeys
the rule, each with the kind that its characters and the one after them give it.  Joined they are
the name without the dropped underscores, and a word is a letter with the lowercase letters after
it. -/
theorem segments_eq_iff_isCutting (name : String) :
    (∀ ss, segments name = ss ↔
      ∃ blocks, IsCutting name.toList blocks ∧ ss = blocks.map (segmentAt name.toList)) ∧
    (segments name).flatMap Segment.text = charsAt name.toList (keptFrom name.toList 0) ∧
    ∀ s ∈ segments name, s.kind = .word →
      ∃ c run, s.text = c :: run ∧ c.isAlpha = true ∧ ∀ d ∈ run, d.isLower = true := by
  refine ⟨fun ss => ⟨?_, ?_⟩, ?_, fun s hs hkind => ?_⟩
  · rintro rfl
    exact ⟨_, isCutting_splitBy name.toList, segments_eq_map_splitBy name⟩
  · rintro ⟨blocks, hblocks, rfl⟩
    rw [segments_eq_map_splitBy, hblocks.splitBy_eq]
  · rw [segments_eq_map_splitBy, flatMap_text_map_segmentAt, List.flatten_splitBy]
  · obtain ⟨cs, left, hcut⟩ := exists_cut_of_mem_scan hs
    exact hcut.exists_of_word hkind

end StubNames
