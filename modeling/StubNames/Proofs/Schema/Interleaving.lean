import Mathlib.Data.List.Induction
import StubNames.Schema.Workspace
import StubNames.Proofs.Schema.Run
/-!
# Interleaved runs

The requests to a workspace come in any order, now for one graph and now for another.  What is
asked of one builder, with its replies, makes a dialogue, and whatever comes between its parts is of
no consequence: the graph and the replies are those of a builder that has the workspace to itself.
-/

namespace StubNames.Schema

inductive Request where
  | start
  | declare (number : Nat) (d : Declaration)
  | build (number : Nat)
  deriving DecidableEq, Repr

abbrev Exchange := Declaration × Except DeclarationError Handle

def Slot.graph : Slot → Graph
  | .underway b => b.graph
  | .built g => g

namespace Workspace

/-- The workspace that a request leaves.  A request that fails leaves it as it was. -/
def serve (w : Workspace) : Request → Workspace
  | .start => w.start.2
  | .declare number d =>
    match w.declare number d with
    | .error _ => w
    | .ok (_, w') => w'
  | .build number =>
    match w.build number with
    | .error _ => w
    | .ok (_, w') => w'

/-- What a request asks of the builder of a number and what that replies, if there is one. -/
def exchange? (w : Workspace) (number : Nat) : Request → Option Exchange
  | .declare n d =>
    if n = number then
      match w.declare n d with
      | .error (.noBuilder _) => none
      | .error (.refused cause) => some (d, .error cause)
      | .ok (h, _) => some (d, .ok h)
    else none
  | .start => none
  | .build _ => none

def run (w : Workspace) : List Request → Workspace
  | [] => w
  | q :: qs => (w.serve q).run qs

def dialogue (w : Workspace) (number : Nat) : List Request → List Exchange
  | [] => []
  | q :: qs => (w.exchange? number q).toList ++ (w.serve q).dialogue number qs

/-- The graph of a number, whether it is built or still takes declarations. -/
def current? (w : Workspace) (number : Nat) : Option Graph :=
  w.graph? number <|> (w.builder? number).map Builder.graph

theorem run_concat (w : Workspace) (qs : List Request) (q : Request) :
    w.run (qs ++ [q]) = (w.run qs).serve q := by
  induction qs generalizing w with
  | nil => rfl
  | cons q' qs ih => exact ih (w.serve q')

theorem dialogue_concat (w : Workspace) (number : Nat) (qs : List Request) (q : Request) :
    w.dialogue number (qs ++ [q]) =
      w.dialogue number qs ++ ((w.run qs).exchange? number q).toList := by
  induction qs generalizing w with
  | nil => simp [dialogue, run]
  | cons q' qs ih => rw [List.cons_append, dialogue, ih, dialogue, List.append_assoc, run]

/-! ## Slots -/

section Slots

variable {w : Workspace} {n m : Nat} {b : Builder} {s : Slot}

theorem builder?_eq_some_iff : w.builder? n = some b ↔ w.slot? n = some (.underway b) := by
  unfold builder?
  split
  · next b' hslot =>
      rw [hslot]
      simp
  · next hslot =>
      constructor
      · intro h
        cases h
      · exact fun h => absurd h (hslot b)

theorem current?_zero : w.current? 0 = some (.empty 0) :=
  rfl

theorem current?_of_ne_zero (hn : n ≠ 0) : w.current? n = (w.slot? n).map Slot.graph := by
  rw [current?, graph?, if_neg hn, builder?]
  cases w.slot? n with
  | none => rfl
  | some s => cases s <;> rfl

theorem slot?_start :
    w.start.2.slot? n = if n = w.start.1 then some (.underway (.start n)) else w.slot? n := by
  cases n with
  | zero => rfl
  | succ i =>
      show (w.slots ++ [Slot.underway (.start (w.slots.length + 1))])[i]? =
        if i + 1 = w.slots.length + 1 then _ else w.slots[i]?
      by_cases hi : i = w.slots.length
      · subst hi
        rw [if_pos rfl, List.getElem?_concat_length]
      · rw [if_neg (by omega)]
        by_cases hlt : i < w.slots.length
        · exact List.getElem?_append_left hlt
        · rw [List.getElem?_eq_none (by simp; omega), List.getElem?_eq_none (by omega)]

theorem slot?_eq_none_of_start : w.slot? w.start.1 = none :=
  List.getElem?_eq_none (Nat.le_refl _)

theorem slot?_setSlot (hm : (w.slot? m).isSome = true) :
    (w.setSlot m s).slot? n = if n = m then some s else w.slot? n := by
  cases m with
  | zero => cases hm
  | succ j =>
      cases n with
      | zero => rfl
      | succ i =>
          show (w.slots.set j s)[i]? = if i + 1 = j + 1 then some s else w.slots[i]?
          have hj : j < w.slots.length := by simpa [slot?] using hm
          by_cases hi : i = j
          · subst hi
            rw [if_pos rfl, List.getElem?_set_self hj]
          · rw [if_neg (by omega), List.getElem?_set_ne (Ne.symm hi)]

end Slots

end Workspace

/-! ## What one request does -/

/-- What a request does to the slot of a number, and what the builder there replies to it. -/
inductive Turn (n : Nat) : Option Slot → Option Exchange → Option Slot → Prop where
  | idle (s : Option Slot) : Turn n s none s
  | start : Turn n none none (some (.underway (.start n)))
  | declare (b : Builder) (d : Declaration) :
      Turn n (some (.underway b)) (some (d, (b.declare d).1)) (some (.underway (b.declare d).2))
  | build (b : Builder) : Turn n (some (.underway b)) none (some (.built b.build))

theorem Builder.Valid.eq_of_declare_error {b b' : Builder} (hb : b.Valid) {d : Declaration}
    {x : DeclarationError} (h : b.declare d = (.error x, b')) : b' = b := by
  rcases hb.declare_cases d with ⟨x', -, hdeclare⟩ | ⟨e, parents, he, -, -, hdeclare⟩
  · rw [hdeclare] at h
    exact (Prod.mk.inj h).2.symm
  · rw [hdeclare] at h
    cases h

namespace Workspace

variable {w : Workspace} {n m : Nat} {d : Declaration} {b b' : Builder}

theorem declare_of_none (hb : w.builder? n = none) : w.declare n d = .error (.noBuilder n) := by
  rw [declare, hb]

theorem declare_of_error {x : DeclarationError} (hb : w.builder? n = some b)
    (hdeclare : b.declare d = (.error x, b')) : w.declare n d = .error (.refused x) := by
  rw [declare, hb]
  simp only [hdeclare]

theorem declare_of_ok {h : Handle} (hb : w.builder? n = some b)
    (hdeclare : b.declare d = (.ok h, b')) :
    w.declare n d = .ok (h, w.setSlot n (.underway b')) := by
  rw [declare, hb]
  simp only [hdeclare]

theorem turn_declare (hw : ∀ b, w.slot? n = some (.underway b) → b.Valid) :
    Turn n (w.slot? n) (w.exchange? n (.declare m d)) ((w.serve (.declare m d)).slot? n) := by
  rw [exchange?, serve]
  cases hb : w.builder? m with
  | none =>
      rw [declare_of_none hb, ite_self]
      exact .idle _
  | some b =>
      have hslot : w.slot? m = some (.underway b) := builder?_eq_some_iff.1 hb
      rcases hdeclare : b.declare d with ⟨x | h, b'⟩
      · rw [declare_of_error hb hdeclare]
        by_cases hm : m = n
        · subst hm
          have hturn : Turn m _ _ _ := .declare b d
          rw [hdeclare, (hw b hslot).eq_of_declare_error hdeclare] at hturn
          rw [if_pos rfl, hslot]
          exact hturn
        · rw [if_neg hm]
          exact .idle _
      · rw [declare_of_ok hb hdeclare, slot?_setSlot (by rw [hslot]; rfl)]
        by_cases hm : m = n
        · subst hm
          have hturn : Turn m _ _ _ := .declare b d
          rw [hdeclare] at hturn
          rw [if_pos rfl, if_pos rfl, hslot]
          exact hturn
        · rw [if_neg hm, if_neg (Ne.symm hm)]
          exact .idle _

theorem turn_build :
    Turn n (w.slot? n) (w.exchange? n (.build m)) ((w.serve (.build m)).slot? n) := by
  rw [exchange?, serve, build]
  cases hbuilder : w.builder? m with
  | none => exact .idle _
  | some b =>
      have hslot : w.slot? m = some (.underway b) := builder?_eq_some_iff.1 hbuilder
      show Turn n (w.slot? n) none ((w.setSlot m (.built b.build)).slot? n)
      rw [slot?_setSlot (by rw [hslot]; rfl)]
      by_cases hm : n = m
      · subst hm
        rw [if_pos rfl, hslot]
        exact .build b
      · rw [if_neg hm]
        exact .idle _

theorem turn_serve (hw : ∀ b, w.slot? n = some (.underway b) → b.Valid) (q : Request) :
    Turn n (w.slot? n) (w.exchange? n q) ((w.serve q).slot? n) := by
  cases q with
  | start =>
      rw [serve, slot?_start, exchange?]
      by_cases hn : n = w.start.1
      · subst hn
        rw [if_pos rfl, slot?_eq_none_of_start]
        exact .start
      · rw [if_neg hn]
        exact .idle _
  | declare m d => exact turn_declare hw
  | build m => exact turn_build

end Workspace

/-! ## What a run does -/

/-- The graph of a slot is what the exchanges with its builder have made of it, and before there
is a builder there are none. -/
inductive Held (n : Nat) : Option Slot → List Exchange → Prop where
  | unstarted : Held n none []
  | started {s : Slot} {exchanges : List Exchange}
      (hgraph : s.graph = ((Builder.start n).run (exchanges.map Prod.fst)).graph)
      (hreplies : exchanges.map Prod.snd = (Builder.start n).replies (exchanges.map Prod.fst)) :
      Held n (some s) exchanges

namespace Held

variable {n : Nat} {s s' : Option Slot} {exchanges : List Exchange}

theorem exchanges_eq_nil (h : Held n none exchanges) : exchanges = [] := by
  cases h
  rfl

theorem graph_and_replies {s : Slot} (h : Held n (some s) exchanges) :
    s.graph = ((Builder.start n).run (exchanges.map Prod.fst)).graph ∧
      exchanges.map Prod.snd = (Builder.start n).replies (exchanges.map Prod.fst) := by
  cases h with
  | started hgraph hreplies => exact ⟨hgraph, hreplies⟩

theorem builder_eq {b : Builder} (h : Held n (some (.underway b)) exchanges) :
    b = (Builder.start n).run (exchanges.map Prod.fst) :=
  congrArg Builder.mk h.graph_and_replies.1

theorem valid {b : Builder} (h : Held n (some (.underway b)) exchanges) : b.Valid := by
  rw [h.builder_eq]
  exact Builder.valid_run_start n _

theorem turn {x : Option Exchange} (h : Held n s exchanges) (ht : Turn n s x s') :
    Held n s' (exchanges ++ x.toList) := by
  cases ht with
  | idle =>
      rw [Option.toList_none, List.append_nil]
      exact h
  | start =>
      rw [h.exchanges_eq_nil]
      exact .started rfl rfl
  | build b =>
      rw [Option.toList_none, List.append_nil]
      exact .started h.graph_and_replies.1 h.graph_and_replies.2
  | declare b d =>
      have hb : b = (Builder.start n).run (exchanges.map Prod.fst) := h.builder_eq
      refine .started ?_ ?_
      · show (b.declare d).2.graph = _
        rw [List.map_append, Option.toList_some, List.map_singleton, Builder.run_concat, hb]
      · rw [List.map_append, List.map_append, Option.toList_some, List.map_singleton,
          List.map_singleton, Builder.replies_concat, h.graph_and_replies.2, hb]

end Held

namespace Workspace

variable {n : Nat}

theorem held_run (n : Nat) (qs : List Request) :
    Held n ((empty.run qs).slot? n) (empty.dialogue n qs) := by
  induction qs using List.reverseRecOn with
  | nil =>
      have hslot : empty.slot? n = none := by
        cases n <;> rfl
      rw [run, hslot]
      exact .unstarted
  | append_singleton qs q ih =>
      have hw : ∀ b, (empty.run qs).slot? n = some (.underway b) → b.Valid := by
        intro b hslot
        rw [hslot] at ih
        exact ih.valid
      rw [run_concat, dialogue_concat]
      exact ih.turn (turn_serve hw q)

/-- Nothing is asked of a builder that does not exist, the empty graph's among them. -/
theorem ne_zero_of_mem_dialogue {qs : List Request} {x : Exchange}
    (hx : x ∈ empty.dialogue n qs) : n ≠ 0 := by
  rintro rfl
  rw [(held_run 0 qs).exchanges_eq_nil] at hx
  cases hx

theorem exists_slot_of_mem_dialogue {qs : List Request} {x : Exchange}
    (hx : x ∈ empty.dialogue n qs) : ∃ s, (empty.run qs).slot? n = some s := by
  have hheld := held_run n qs
  cases hslot : (empty.run qs).slot? n with
  | some s => exact ⟨s, rfl⟩
  | none =>
      rw [hslot] at hheld
      rw [hheld.exchanges_eq_nil] at hx
      cases hx

end Workspace

end StubNames.Schema
