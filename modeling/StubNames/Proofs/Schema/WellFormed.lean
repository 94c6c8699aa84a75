import StubNames.Proofs.Schema.Growth
/-!
# Well-formed graphs

Every link of an entity leads to an entity of the same graph that was declared before, and of the
kind that the link asks for.  The predicate says nothing of children, so a graph keeps it when
children are listed, and a new entity that is well placed among the old ones keeps it as well.
-/

namespace StubNames.Schema

def Kind.hosts : Kind → List Kind
  | .file => []
  | .package => []
  | .message => [.file, .message]
  | .enumeration => [.file, .message]
  | .enumValue => [.enumeration]
  | .field _ => [.message]
  | .oneofGroup => [.message]
  | .service => [.file]
  | .method => [.service]

namespace Graph

/-- The entity `e` has its place at `h`: its parent, its package and its oneof group are what they
should be. -/
structure WellPlaced (g : Graph) (h : Handle) (e : Entity) : Prop where
  parent_eq_none : e.parent = none ↔ e.kind = .file ∨ e.kind = .package
  parent : ∀ p, e.parent = some p → ∃ s, g.get? p = some s ∧ p.index < h.index ∧
    s.kind ∈ e.kind.hosts ∧ s.package = e.package
  package_eq_none : e.package = none ↔ e.kind = .package
  package : ∀ p, e.package = some p → ∃ s, g.get? p = some s ∧ p.index < h.index ∧
    s.kind = .package
  oneof : ∀ o, e.kind = .field (some o) → ∃ s, g.get? o = some s ∧ o.index < h.index ∧
    s.kind = .oneofGroup ∧ s.parent = e.parent

def WellFormed (g : Graph) : Prop :=
  ∀ h e, g.get? h = some e → g.WellPlaced h e

/-- The index lists the full names in the order of declaration, each with its handle. -/
def Indexed (g : Graph) : Prop :=
  g.index.entries = g.fullNames.zipIdx.map fun p => (p.1, ⟨g.number, p.2⟩)

/-! ## Well-placed entities stay so -/

theorem WellPlaced.mono {g g' : Graph} {h : Handle} {e e' : Entity} (hplaced : g.WellPlaced h e)
    (hext : g.Extends g') (hgrows : e.Grows e') : g'.WellPlaced h e' where
  parent_eq_none := by
    rw [hgrows.parent, hgrows.kind]
    exact hplaced.parent_eq_none
  parent p hp := by
    obtain ⟨s, hs, hlt, hkind, hpackage⟩ := hplaced.parent p (hgrows.parent ▸ hp)
    obtain ⟨s', hs', hsgrows⟩ := hext.grows p s hs
    exact ⟨s', hs', hlt, by rwa [hsgrows.kind, hgrows.kind],
      by rw [hsgrows.package, hgrows.package, hpackage]⟩
  package_eq_none := by
    rw [hgrows.package, hgrows.kind]
    exact hplaced.package_eq_none
  package p hp := by
    obtain ⟨s, hs, hlt, hkind⟩ := hplaced.package p (hgrows.package ▸ hp)
    obtain ⟨s', hs', hsgrows⟩ := hext.grows p s hs
    exact ⟨s', hs', hlt, by rw [hsgrows.kind, hkind]⟩
  oneof o ho := by
    obtain ⟨s, hs, hlt, hkind, hparent⟩ := hplaced.oneof o (hgrows.kind ▸ ho)
    obtain ⟨s', hs', hsgrows⟩ := hext.grows o s hs
    exact ⟨s', hs', hlt, by rw [hsgrows.kind, hkind],
      by rw [hsgrows.parent, hgrows.parent, hparent]⟩

theorem WellFormed.exists_parent {g : Graph} (hg : g.WellFormed) {h : Handle} {e : Entity}
    (he : g.get? h = some e) (hfile : e.kind ≠ .file) (hpackage : e.kind ≠ .package) :
    ∃ p s, e.parent = some p ∧ g.get? p = some s ∧ s.kind ∈ e.kind.hosts := by
  have hplaced := hg h e he
  obtain ⟨p, hp⟩ : ∃ p, e.parent = some p := by
    rw [← Option.ne_none_iff_exists', Ne, hplaced.parent_eq_none]
    exact fun hroot => hroot.elim hfile hpackage
  obtain ⟨s, hs, -, hkind, -⟩ := hplaced.parent p hp
  exact ⟨p, s, hp, hs, hkind⟩

/-! ## Graphs stay well formed -/

theorem wellFormed_empty (number : Nat) : (empty number).WellFormed := by
  intro h e he
  simp [get?, empty] at he

theorem WellFormed.push {g : Graph} {e : Entity}
    {he : ∀ p, e.parent = some p → p.index < g.entities.length} (hg : g.WellFormed)
    (hplaced : g.WellPlaced g.next e) : (g.push e he).WellFormed :=
  forall_push (fun hext hgrows hold => hold.mono hext hgrows) hg hplaced

theorem WellFormed.adoptAll {g : Graph} (hg : g.WellFormed) (child : Handle)
    (parents : List Handle) : (g.adoptAll child parents).WellFormed :=
  forall_adoptAll (fun hext hgrows hold => hold.mono hext hgrows) hg

/-! ## The index -/

theorem indexed_empty (number : Nat) : (empty number).Indexed := rfl

theorem Indexed.keys {g : Graph} (hg : g.Indexed) : g.index.keys = g.fullNames := by
  rw [Ordered.Map.keys, hg, List.map_map]
  exact List.zipIdx_map_fst 0 g.fullNames

theorem Indexed.push {g : Graph} {e : Entity}
    {he : ∀ p, e.parent = some p → p.index < g.entities.length} (hg : g.Indexed)
    (hfree : e.fullName ∉ g.fullNames) : (g.push e he).Indexed := by
  have hlength : g.fullNames.length = g.entities.length := List.length_map _
  rw [Indexed, fullNames_push, number_push, List.zipIdx_append, List.map_append, ← hg]
  change (g.index.insert e.fullName ⟨g.number, g.entities.length⟩).entries = _
  rw [Ordered.Map.entries_insert_of_notMem (hg.keys ▸ hfree), Nat.zero_add, hlength]
  rfl

theorem Indexed.adoptAll {g : Graph} (hg : g.Indexed) (child : Handle) (parents : List Handle) :
    (g.adoptAll child parents).Indexed := by
  rw [Indexed, index_adoptAll, fullNames_adoptAll, extends_adoptAll.number]
  exact hg

end Graph

end StubNames.Schema
