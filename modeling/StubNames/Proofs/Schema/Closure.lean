import StubNames.Proofs.Schema.Catalogue
/-!
# Handles that a graph gives out

A graph leads from entity to entity by handles: by its index, and by the links of an entity to what
encloses it, what it encloses, its package and its oneof group.  All of them are handles that the
same graph resolves, while a handle of another graph leads nowhere.
-/

namespace StubNames.Schema

namespace Graph

variable {g : Graph} {h parent child : Handle} {e : Entity} {parents : List Handle}

/-! ## Children -/

def ChildrenHere (g : Graph) : Prop :=
  ∀ h e, g.get? h = some e → ∀ c ∈ e.children, (g.get? c).isSome = true

theorem isSome_get?_of_extends {g' : Graph} (hext : g.Extends g')
    (hsome : (g.get? h).isSome = true) : (g'.get? h).isSome = true := by
  obtain ⟨e, he⟩ := Option.isSome_iff_exists.1 hsome
  obtain ⟨e', he', -⟩ := hext.grows h e he
  rw [he']
  rfl

theorem get?_adopt : (g.adopt parent child).get? h = (g.get? h).map fun e =>
    if parent.index = h.index then { e with children := e.children ++ [child] } else e := by
  unfold get?
  rw [number_adopt, getElem?_entities_adopt]
  split <;> rfl

theorem childrenHere_empty (number : Nat) : (empty number).ChildrenHere := by
  intro h e he
  simp [get?, empty] at he

theorem ChildrenHere.push {he : ∀ p, e.parent = some p → p.index < g.entities.length}
    (hg : g.ChildrenHere) (hnone : e.children = []) : (g.push e he).ChildrenHere := by
  intro h e' he' c hc
  by_cases hnext : h = g.next
  · subst hnext
    rw [get?_push_next, Option.some.injEq] at he'
    subst he'
    rw [hnone] at hc
    cases hc
  · rw [get?_push_of_ne hnext] at he'
    exact isSome_get?_of_extends extends_push (hg h e' he' c hc)

theorem ChildrenHere.adopt (hg : g.ChildrenHere) (hchild : (g.get? child).isSome = true) :
    (g.adopt parent child).ChildrenHere := by
  intro h e' he' c hc
  rw [get?_adopt] at he'
  obtain ⟨e, he, rfl⟩ := Option.map_eq_some_iff.1 he'
  apply isSome_get?_of_extends extends_adopt
  split at hc
  · rcases List.mem_append.1 hc with hc | hc
    · exact hg h e he c hc
    · rwa [List.mem_singleton.1 hc]
  · exact hg h e he c hc

theorem ChildrenHere.adoptAll (hg : g.ChildrenHere) (hchild : (g.get? child).isSome = true) :
    (g.adoptAll child parents).ChildrenHere := by
  induction parents generalizing g with
  | nil => exact hg
  | cons p parents ih => exact ih (hg.adopt hchild) (isSome_get?_of_extends extends_adopt hchild)

end Graph

theorem Declaration.Entry.children_eq_nil {g : Graph} {d : Declaration} {e : Entity}
    {parents : List Handle} (h : d.Entry g e parents) : e.children = [] := by
  cases h <;> rfl

namespace Builder

theorem Valid.childrenHere_declare {b : Builder} (hb : b.Valid) (hg : b.graph.ChildrenHere)
    (d : Declaration) : (b.declare d).2.graph.ChildrenHere := by
  rcases hb.declare_cases d with ⟨e, -, hdeclare⟩ | ⟨e, parents, he, hentry, -, hdeclare⟩
  · rw [hdeclare]
    exact hg
  · rw [hdeclare]
    apply (hg.push hentry.children_eq_nil).adoptAll
    rw [Graph.get?_push_next]
    rfl

theorem Valid.childrenHere_run {b : Builder} (hb : b.Valid) (hg : b.graph.ChildrenHere)
    (ds : List Declaration) : (b.run ds).graph.ChildrenHere := by
  induction ds generalizing b with
  | nil => exact hg
  | cons d ds ih => exact ih (hb.declare d) (hb.childrenHere_declare hg d)

end Builder

/-! ## All handles -/

namespace Graph

/-- Every handle that a graph gives out is one that it resolves. -/
structure Closed (g : Graph) : Prop where
  lookup : ∀ s h, g.lookup s = some h → (g.get? h).isSome = true
  toList : ∀ p ∈ g.toList, (g.get? p.1).isSome = true
  ancestors : ∀ h, ∀ a ∈ g.ancestors h, (g.get? a).isSome = true
  parent : ∀ h e p, g.get? h = some e → e.parent = some p → (g.get? p).isSome = true
  package : ∀ h e p, g.get? h = some e → e.package = some p → (g.get? p).isSome = true
  children : ∀ h e, g.get? h = some e → ∀ c ∈ e.children, (g.get? c).isSome = true
  oneof : ∀ h e o, g.get? h = some e → e.oneof = some o → (g.get? o).isSome = true

theorem WellFormed.closed {g : Graph} (hg : g.WellFormed) (hindex : g.Indexed)
    (hchildren : g.ChildrenHere) : g.Closed where
  lookup s h hs := by
    obtain ⟨e, he, -⟩ := hindex.lookup_eq_some_iff.1 hs
    rw [he]
    rfl
  toList p hp := by
    rw [hindex.toList_eq_declared] at hp
    rw [mem_declared_iff.1 hp]
    rfl
  ancestors h a ha := by
    obtain ⟨s, -, hs, -⟩ := hg.exists_of_mem_ancestors ha
    rw [hs]
    rfl
  parent h e p he hp := by
    obtain ⟨s, hs, -⟩ := (hg h e he).parent p hp
    rw [hs]
    rfl
  package h e p he hp := by
    obtain ⟨s, hs, -⟩ := (hg h e he).package p hp
    rw [hs]
    rfl
  children := hchildren
  oneof h e o he ho := by
    obtain ⟨s, hs, -⟩ := (hg h e he).oneof o (Entity.oneof_eq_some_iff.1 ho)
    rw [hs]
    rfl

end Graph

theorem Builder.closed_run_start (number : Nat) (ds : List Declaration) :
    ((start number).run ds).graph.Closed := by
  have hb : ((start number).run ds).Valid := valid_run_start number ds
  apply hb.wellFormed.closed hb.indexed
  exact (valid_start number).childrenHere_run (Graph.childrenHere_empty number) ds

end StubNames.Schema
