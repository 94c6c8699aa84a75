import StubNames.Schema.Builder
/-!
# How graphs grow

Two operations change a graph: `Graph.push` puts an entity behind all others, and `Graph.adopt`
puts a handle behind the children of an entity.  Neither touches anything else of an entity that
is already there, so what a handle leads to keeps its kind, its names, its parent and its package
for good.
-/

namespace StubNames.Schema

/-- An entity, and the same one later: its list of children may have become longer. -/
structure Entity.Grows (e e' : Entity) : Prop where
  kind : e'.kind = e.kind
  name : e'.name = e.name
  fullName : e'.fullName = e.fullName
  parent : e'.parent = e.parent
  package : e'.package = e.package
  children : e.children <+: e'.children

namespace Entity.Grows

theorem refl (e : Entity) : e.Grows e :=
  ⟨rfl, rfl, rfl, rfl, rfl, List.prefix_refl _⟩

theorem trans {e e' e'' : Entity} (h : e.Grows e') (h' : e'.Grows e'') : e.Grows e'' where
  kind := h'.kind.trans h.kind
  name := h'.name.trans h.name
  fullName := h'.fullName.trans h.fullName
  parent := h'.parent.trans h.parent
  package := h'.package.trans h.package
  children := h.children.trans h'.children

theorem append_children (e : Entity) (child : Handle) :
    e.Grows { e with children := e.children ++ [child] } :=
  ⟨rfl, rfl, rfl, rfl, rfl, List.prefix_append _ _⟩

end Entity.Grows

structure Graph.Extends (g g' : Graph) : Prop where
  number : g'.number = g.number
  grows : ∀ h e, g.get? h = some e → ∃ e', g'.get? h = some e' ∧ e.Grows e'

namespace Graph

/-! ## Handles -/

def next (g : Graph) : Handle :=
  ⟨g.number, g.size⟩

def fullNames (g : Graph) : List String :=
  g.entities.map Entity.fullName

theorem isSome_get?_iff {g : Graph} {h : Handle} :
    (g.get? h).isSome = true ↔ h.graph = g.number ∧ h.index < g.size := by
  unfold get? size
  split
  · next hgraph => simp [hgraph]
  · next hgraph => simp [hgraph]

theorem graph_eq_of_get? {g : Graph} {h : Handle} {e : Entity} (he : g.get? h = some e) :
    h.graph = g.number :=
  (isSome_get?_iff.1 (by rw [he]; rfl)).1

theorem get?_next (g : Graph) : g.get? g.next = none := by
  simp [get?, next, size]

/-! ## One more entity -/

section Push

variable {g : Graph} {e : Entity} {he : ∀ p, e.parent = some p → p.index < g.entities.length}

@[simp] theorem number_push : (g.push e he).number = g.number := rfl

@[simp] theorem size_push : (g.push e he).size = g.size + 1 := by
  simp [push, size]

@[simp] theorem fullNames_push : (g.push e he).fullNames = g.fullNames ++ [e.fullName] := by
  simp [push, fullNames]

theorem get?_push_next : (g.push e he).get? g.next = some e := by
  simp [get?, push, next, size]

theorem get?_push_of_ne {h : Handle} (hne : h ≠ g.next) : (g.push e he).get? h = g.get? h := by
  unfold get?
  rw [number_push]
  split
  · next hgraph =>
      have hindex : h.index ≠ g.size := by
        rintro hindex
        exact hne (by rw [next, ← hgraph, ← hindex])
      simp only [push, List.getElem?_append, size] at hindex ⊢
      split
      · rfl
      · rw [List.getElem?_eq_none (by simp; omega), List.getElem?_eq_none (by omega)]
  · rfl

theorem extends_push : g.Extends (g.push e he) where
  number := rfl
  grows h e₀ h₀ := by
    have hne : h ≠ g.next := by
      rintro rfl
      rw [get?_next] at h₀
      cases h₀
    exact ⟨e₀, by rw [get?_push_of_ne hne, h₀], .refl e₀⟩

end Push

/-! ## One more child -/

section Adopt

variable {g : Graph} {parent child : Handle}

@[simp] theorem number_adopt : (g.adopt parent child).number = g.number := rfl

@[simp] theorem size_adopt : (g.adopt parent child).size = g.size := by
  simp [adopt, size]

@[simp] theorem index_adopt : (g.adopt parent child).index = g.index := rfl

theorem getElem?_entities_adopt (i : Nat) :
    (g.adopt parent child).entities[i]? = g.entities[i]?.map fun e =>
      if parent.index = i then { e with children := e.children ++ [child] } else e := by
  rw [adopt, List.getElem?_modify]
  rfl

@[simp] theorem fullNames_adopt : (g.adopt parent child).fullNames = g.fullNames := by
  apply List.ext_getElem?
  intro i
  rw [fullNames, fullNames, List.getElem?_map, List.getElem?_map, getElem?_entities_adopt]
  cases g.entities[i]? with
  | none => rfl
  | some e =>
      by_cases hi : parent.index = i <;> simp [hi]

theorem extends_adopt : g.Extends (g.adopt parent child) where
  number := rfl
  grows h e he := by
    have hgraph : h.graph = g.number := graph_eq_of_get? he
    refine ⟨if parent.index = h.index then { e with children := e.children ++ [child] } else e,
      ?_, ?_⟩
    · rw [get?, number_adopt, if_pos hgraph, getElem?_entities_adopt, getElem?_of_get? he]
      rfl
    · split
      · exact .append_children e child
      · exact .refl e

end Adopt

/-! ## Extensions -/

theorem Extends.refl (g : Graph) : g.Extends g :=
  ⟨rfl, fun _ e he => ⟨e, he, .refl e⟩⟩

theorem Extends.trans {g g' g'' : Graph} (h : g.Extends g') (h' : g'.Extends g'') :
    g.Extends g'' where
  number := h'.number.trans h.number
  grows x e he := by
    obtain ⟨e', he', hgrows⟩ := h.grows x e he
    obtain ⟨e'', he'', hgrows'⟩ := h'.grows x e' he'
    exact ⟨e'', he'', hgrows.trans hgrows'⟩

theorem Extends.exists_of_size_eq {g g' : Graph} (h : g.Extends g') (hsize : g'.size = g.size)
    {x : Handle} {e' : Entity} (he' : g'.get? x = some e') :
    ∃ e, g.get? x = some e ∧ e.Grows e' := by
  have hsome : (g.get? x).isSome = true := by
    rw [isSome_get?_iff, ← h.number, ← hsize, ← isSome_get?_iff, he']
    rfl
  obtain ⟨e, he⟩ := Option.isSome_iff_exists.1 hsome
  obtain ⟨e'', he'', hgrows⟩ := h.grows x e he
  obtain rfl : e'' = e' := Option.some.inj (he''.symm.trans he')
  exact ⟨e, he, hgrows⟩

def adoptAll (g : Graph) (child : Handle) : List Handle → Graph
  | [] => g
  | p :: parents => (g.adopt p child).adoptAll child parents

section AdoptAll

variable {g : Graph} {child : Handle} {parents : List Handle}

theorem extends_adoptAll : g.Extends (g.adoptAll child parents) := by
  induction parents generalizing g with
  | nil => exact .refl g
  | cons p parents ih => exact extends_adopt.trans ih

@[simp] theorem size_adoptAll : (g.adoptAll child parents).size = g.size := by
  induction parents generalizing g with
  | nil => rfl
  | cons p parents ih => rw [adoptAll, ih, size_adopt]

@[simp] theorem index_adoptAll : (g.adoptAll child parents).index = g.index := by
  induction parents generalizing g with
  | nil => rfl
  | cons p parents ih => rw [adoptAll, ih, index_adopt]

@[simp] theorem fullNames_adoptAll : (g.adoptAll child parents).fullNames = g.fullNames := by
  induction parents generalizing g with
  | nil => rfl
  | cons p parents ih => rw [adoptAll, ih, fullNames_adopt]

end AdoptAll

/-! ## What holds of all entities

A statement about an entity that stays true while the graph grows holds of all entities again when
it holds of the new one. -/

section Stable

variable {P : Graph → Handle → Entity → Prop}

theorem forall_push {g : Graph} {e : Entity}
    {he : ∀ p, e.parent = some p → p.index < g.entities.length}
    (hstable : ∀ {g' h e e'}, g.Extends g' → e.Grows e' → P g h e → P g' h e')
    (hold : ∀ h e, g.get? h = some e → P g h e) (hnew : P g g.next e) :
    ∀ h e', (g.push e he).get? h = some e' → P (g.push e he) h e' := by
  intro h e' he'
  by_cases hnext : h = g.next
  · subst hnext
    obtain rfl : e = e' := by
      rw [get?_push_next] at he'
      exact Option.some.inj he'
    exact hstable extends_push (.refl e) hnew
  · rw [get?_push_of_ne hnext] at he'
    exact hstable extends_push (.refl e') (hold h e' he')

theorem forall_adoptAll {g : Graph} {child : Handle} {parents : List Handle}
    (hstable : ∀ {g' h e e'}, g.Extends g' → e.Grows e' → P g h e → P g' h e')
    (hold : ∀ h e, g.get? h = some e → P g h e) :
    ∀ h e', (g.adoptAll child parents).get? h = some e' → P (g.adoptAll child parents) h e' := by
  intro h e' he'
  obtain ⟨e, he, hgrows⟩ := extends_adoptAll.exists_of_size_eq size_adoptAll he'
  exact hstable extends_adoptAll hgrows (hold h e he)

end Stable

end Graph

end StubNames.Schema
