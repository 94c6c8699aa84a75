import StubNames.Naming.Resolver
import StubNames.Proofs.Schema.Closure
import StubNames.Proofs.Schema.Interleaving
import StubNames.Proofs.Schema.Renumbering
/-!
# Isolation of graphs

Graphs of one workspace have entities at the same positions, and their handles only differ by the
number of the graph.  That is enough to keep them apart: whatever the order of the requests, a
handle leads somewhere in the graph whose builder has issued it and nowhere else, and no builder
can tell what the others are asked.
-/

namespace StubNames

open Schema (Builder Declaration DeclarationError Graph Handle Request Workspace)

namespace Schema

/-! ## Handles of other graphs -/

/-- Nothing comes of a handle in a graph: no entity, no ancestors, and no name of any sort. -/
structure Graph.Rejects (g : Graph) (h : Handle) : Prop where
  get : g.get? h = none
  ancestors : g.ancestors h = []
  name : ∀ c, (Resolver.mk g c).name h = .error (.unknownEntity h)
  oneofOption : ∀ c, (Resolver.mk g c).oneofOption h = .error (.unknownEntity h)
  clientName : ∀ c, (Resolver.mk g c).clientName h = .error (.unknownEntity h)
  serverName : ∀ c, (Resolver.mk g c).serverName h = .error (.unknownEntity h)

theorem Graph.rejects_of_get?_eq_none {g : Graph} {h : Handle} (hnone : g.get? h = none) :
    g.Rejects h := by
  have hentity : ∀ c, (Resolver.mk g c).entity h = .error (.unknownEntity h) := by
    intro c
    rw [Resolver.entity, hnone]
  have hservice : ∀ c request suffix,
      (Resolver.mk g c).serviceName request suffix h = .error (.unknownEntity h) := by
    intro c request suffix
    rw [Resolver.serviceName, hentity]
    rfl
  refine ⟨hnone, ?_, fun c => ?_, fun c => ?_, fun c => hservice c _ _, fun c => hservice c _ _⟩
  · rw [ancestors]
    split
    · rfl
    · next e he =>
        rw [hnone] at he
        cases he
  · rw [Resolver.name, hentity]
    rfl
  · rw [Resolver.oneofOption, hentity]
    rfl

namespace Builder

theorem Valid.declare_of_foreign {b : Builder} (hb : b.Valid) {d : Declaration} {h : Handle}
    (hhost : d.host? = some h) (hnone : b.graph.get? h = none) :
    b.declare d = (.error (.unknownEntity h), b) := by
  have hnot : h ∉ b.graph.handles := by
    rw [Graph.mem_handles_iff, hnone]
    exact Bool.false_ne_true
  exact hb.declare_eq_error (.unknown hhost hnot)

end Builder

namespace Workspace

/-! ## The graphs of a run -/

section Run

variable {qs : List Request} {n m : Nat} {g : Graph} {h : Handle}

/-- The graph of a number and the replies of its builder are those of a lone run. -/
theorem current?_run (hg : (empty.run qs).current? n = some g) :
    g = ((Builder.start n).run ((empty.dialogue n qs).map Prod.fst)).graph ∧
      (empty.dialogue n qs).map Prod.snd =
        (Builder.start n).replies ((empty.dialogue n qs).map Prod.fst) := by
  have hheld := held_run n qs
  by_cases hn : n = 0
  · subst hn
    rw [current?_zero] at hg
    obtain rfl := Option.some.inj hg
    rw [hheld.exchanges_eq_nil]
    exact ⟨rfl, rfl⟩
  · rw [current?_of_ne_zero hn] at hg
    obtain ⟨s, hslot, rfl⟩ := Option.map_eq_some_iff.1 hg
    rw [hslot] at hheld
    exact hheld.graph_and_replies

theorem number_of_current? (hg : (empty.run qs).current? n = some g) : g.number = n := by
  rw [(current?_run hg).1]
  exact Builder.number_run_start n _

/-- A graph has the entities of the handles that its own builder has issued. -/
theorem isSome_get?_iff_mem_dialogue (hg : (empty.run qs).current? n = some g) :
    (g.get? h).isSome = true ↔ ∃ d, (d, .ok h) ∈ empty.dialogue n qs := by
  obtain ⟨rfl, hreplies⟩ := current?_run hg
  rw [← Graph.mem_handles_iff, ← Builder.issued_start, Builder.mem_issued_iff, ← hreplies,
    List.mem_map]
  constructor
  · rintro ⟨⟨d, reply⟩, hmem, rfl⟩
    exact ⟨d, hmem⟩
  · rintro ⟨d, hmem⟩
    exact ⟨(d, .ok h), hmem, rfl⟩

theorem exists_current?_of_mem_dialogue {x : Exchange} (hx : x ∈ empty.dialogue m qs) :
    ∃ g, (empty.run qs).current? m = some g := by
  obtain ⟨s, hslot⟩ := exists_slot_of_mem_dialogue hx
  rw [current?_of_ne_zero (ne_zero_of_mem_dialogue hx), hslot]
  exact ⟨s.graph, rfl⟩

theorem graph_eq_of_mem_dialogue {d : Declaration} (hh : (d, .ok h) ∈ empty.dialogue m qs) :
    h.graph = m := by
  obtain ⟨g, hg⟩ := exists_current?_of_mem_dialogue hh
  rw [← number_of_current? hg]
  exact (Graph.isSome_get?_iff.1 ((isSome_get?_iff_mem_dialogue hg).2 ⟨d, hh⟩)).1

theorem get?_eq_none_of_foreign {d : Declaration} (hh : (d, .ok h) ∈ empty.dialogue m qs)
    (hne : n ≠ m) (hg : (empty.run qs).current? n = some g) : g.get? h = none := by
  rw [Graph.get?, if_neg]
  rw [graph_eq_of_mem_dialogue hh, number_of_current? hg]
  exact hne.symm

theorem current?_of_builder? {w : Workspace} {b : Builder} (hb : w.builder? n = some b) :
    w.current? n = some b.graph := by
  have hslot : w.slot? n = some (.underway b) := builder?_eq_some_iff.1 hb
  have hn : n ≠ 0 := by
    rintro rfl
    cases hslot
  rw [current?_of_ne_zero hn, hslot]
  rfl

theorem valid_of_builder? {b : Builder} (hb : (empty.run qs).builder? n = some b) : b.Valid := by
  have hheld := held_run n qs
  rw [builder?_eq_some_iff.1 hb] at hheld
  exact hheld.valid

end Run

/-! ## Isolation -/

/-- What keeps the graphs of a run apart.  The graphs are those that are built or underway when
the run ends, the empty graph of number zero among them. -/
structure Isolated (qs : List Request) : Prop where
  /-- A handle that has been issued leads to an entity of its builder's graph. -/
  resolved : ∀ m d h, (d, .ok h) ∈ empty.dialogue m qs →
    ∃ g, (empty.run qs).current? m = some g ∧ (g.get? h).isSome = true
  /-- A graph has no other entities than its builder has issued handles for. -/
  owned : ∀ n g h, (empty.run qs).current? n = some g → (g.get? h).isSome = true →
    ∃ d, (d, .ok h) ∈ empty.dialogue n qs
  rejected : ∀ m d h, (d, .ok h) ∈ empty.dialogue m qs →
    ∀ n g, n ≠ m → (empty.run qs).current? n = some g → g.Rejects h
  /-- Nothing is declared under a handle of another builder. -/
  refused : ∀ m d h, (d, .ok h) ∈ empty.dialogue m qs →
    ∀ n b d', n ≠ m → (empty.run qs).builder? n = some b → d'.host? = some h →
      b.declare d' = (.error (.unknownEntity h), b) ∧
      (empty.run qs).declare n d' = .error (.refused (.unknownEntity h)) ∧
      (empty.run qs).serve (.declare n d') = empty.run qs
  closed : ∀ n g, (empty.run qs).current? n = some g → g.Closed
  /-- A builder does what it does when no other builder is there. -/
  alone : ∀ n g, (empty.run qs).current? n = some g →
    g = ((Builder.start n).run ((empty.dialogue n qs).map Prod.fst)).graph ∧
      (empty.dialogue n qs).map Prod.snd =
        (Builder.start n).replies ((empty.dialogue n qs).map Prod.fst)
  /-- Builders of any two runs that are asked the same, but for the numbers in handles, reply the
  same and have the same graph, but for the numbers in handles. -/
  renumbered : ∀ qs' n n' g g', (empty.run qs).current? n = some g →
    (empty.run qs').current? n' = some g' →
    List.Forall₂ (Declaration.Matches n n') ((empty.dialogue n qs).map Prod.fst)
      ((empty.dialogue n' qs').map Prod.fst) →
    List.Forall₂ (AnswersMatch n n') ((empty.dialogue n qs).map Prod.snd)
      ((empty.dialogue n' qs').map Prod.snd) ∧ g.Renumbered g'

/-- In every run over any number of builders, in whatever order the requests come, the graphs are
isolated from one another. -/
theorem isolated_run (qs : List Request) : Isolated qs where
  resolved m d h hh := by
    obtain ⟨g, hg⟩ := exists_current?_of_mem_dialogue hh
    exact ⟨g, hg, (isSome_get?_iff_mem_dialogue hg).2 ⟨d, hh⟩⟩
  owned n g h hg hsome := (isSome_get?_iff_mem_dialogue hg).1 hsome
  rejected m d h hh n g hne hg :=
    Graph.rejects_of_get?_eq_none (get?_eq_none_of_foreign hh hne hg)
  refused m d h hh n b d' hne hb hhost := by
    have hnone : b.graph.get? h = none :=
      get?_eq_none_of_foreign hh hne (current?_of_builder? hb)
    have hdeclare : b.declare d' = (.error (.unknownEntity h), b) :=
      (valid_of_builder? hb).declare_of_foreign hhost hnone
    refine ⟨hdeclare, declare_of_error hb hdeclare, ?_⟩
    rw [serve, declare_of_error hb hdeclare]
  closed n g hg := by
    rw [(current?_run hg).1]
    exact Builder.closed_run_start n _
  alone n g hg := current?_run hg
  renumbered qs' n n' g g' hg hg' hds := by
    obtain ⟨rfl, hreplies⟩ := current?_run hg
    obtain ⟨rfl, hreplies'⟩ := current?_run hg'
    rw [hreplies, hreplies']
    exact Builder.renumbered_run_start hds

/-- Two graphs whose declarations take turns.  The second one is asked for a file in the package
of the first. -/
def twinRequests : List Request :=
  [.start, .start, .declare 1 (.package "a"), .declare 2 (.package "b"), .build 1,
    .declare 2 (.file ⟨1, 0⟩ "x"), .declare 2 (.file ⟨2, 0⟩ "x")]

theorem isolated_run_twins :
    (.file ⟨1, 0⟩ "x", .error (.unknownEntity ⟨1, 0⟩)) ∈ empty.dialogue 2 twinRequests ∧
      (∃ g, (empty.run twinRequests).graph? 1 = some g ∧ (g.get? ⟨1, 0⟩).isSome = true ∧
        g.Rejects ⟨2, 0⟩) ∧
      ∃ b, (empty.run twinRequests).builder? 2 = some b ∧
        b.declare (.file ⟨1, 0⟩ "y") = (.error (.unknownEntity ⟨1, 0⟩), b) := by
  have hfirst : (.package "a", .ok ⟨1, 0⟩) ∈ empty.dialogue 1 twinRequests := by
    decide +kernel
  have hsecond : (.package "b", .ok ⟨2, 0⟩) ∈ empty.dialogue 2 twinRequests := by
    decide +kernel
  have hisolated : Isolated twinRequests := isolated_run twinRequests
  have hunderway : ((empty.run twinRequests).builder? 2).isSome = true := by
    decide +kernel
  refine ⟨by decide +kernel, ?_, ?_⟩
  · obtain ⟨g, hg, hsome⟩ := hisolated.resolved 1 _ _ hfirst
    exact ⟨g, hg, hsome, hisolated.rejected 2 _ _ hsecond 1 g (by decide) hg⟩
  · obtain ⟨b, hb⟩ := Option.isSome_iff_exists.1 hunderway
    exact ⟨b, hb, (hisolated.refused 1 _ _ hfirst 2 b _ (by decide) hb rfl).1⟩

end Workspace

end Schema

end StubNames
