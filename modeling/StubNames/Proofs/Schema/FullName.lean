import StubNames.Proofs.Schema.Run
/-!
# Full names

A package is named after itself with a dot in front and a file after its path; everything else
goes on from the scope that it is declared in.  A full name is given once, so it tells its entity
from all others of the graph.
-/

namespace StubNames.Schema

namespace Graph

structure Names (g : Graph) (e : Entity) : Prop where
  package : e.kind = .package → e.fullName = "." ++ e.name
  file : e.kind = .file → e.fullName = e.name
  inside : ∀ p, e.parent = some p → ∃ s outer, g.get? p = some s ∧
    g.scopeName? s = some outer ∧ e.fullName = outer ++ "." ++ e.name

def WellNamed (g : Graph) : Prop :=
  ∀ h e, g.get? h = some e → g.Names e

/-! ## Full names stay as they are -/

section Growing

variable {g g' : Graph} {e e' : Entity}

theorem Extends.scopeName?_eq_some (hext : g.Extends g') (hgrows : e.Grows e') {outer : String}
    (houter : g.scopeName? e = some outer) : g'.scopeName? e' = some outer := by
  unfold scopeName? at houter ⊢
  rw [hgrows.kind, hgrows.package, hgrows.fullName]
  split at houter
  · next hfile =>
      obtain ⟨p, hp, hname⟩ := Option.map_eq_some_iff.1 houter
      obtain ⟨package, hpackage, hget⟩ := Option.bind_eq_some_iff.1 hp
      obtain ⟨p', hget', hgrows'⟩ := hext.grows package p hget
      rw [if_pos hfile, hpackage, Option.bind_some, hget', Option.map_some, hgrows'.fullName, hname]
  · next hfile => rw [if_neg hfile, houter]

theorem Names.mono (hnames : g.Names e) (hext : g.Extends g') (hgrows : e.Grows e') :
    g'.Names e' where
  package hkind := by
    rw [hgrows.fullName, hgrows.name]
    exact hnames.package (hgrows.kind ▸ hkind)
  file hkind := by
    rw [hgrows.fullName, hgrows.name]
    exact hnames.file (hgrows.kind ▸ hkind)
  inside p hp := by
    obtain ⟨s, outer, hs, houter, hfull⟩ := hnames.inside p (hgrows.parent ▸ hp)
    obtain ⟨s', hs', hsgrows⟩ := hext.grows p s hs
    refine ⟨s', outer, hs', hext.scopeName?_eq_some hsgrows houter, ?_⟩
    rw [hgrows.fullName, hgrows.name, hfull]

end Growing

end Graph

theorem Declaration.Entry.names {g : Graph} {d : Declaration} {e : Entity} {parents : List Handle}
    (h : d.Entry g e parents) : g.Names e := by
  cases h with
  | package name => exact ⟨fun _ => rfl, by simp, by simp⟩
  | file path hs hkind => exact ⟨by simp, fun _ => rfl, by simp⟩
  | @member what parent package s outer name hs hkind hpackage houter =>
      refine ⟨?_, ?_, ?_⟩
      · cases what <;> simp [Member.kind]
      · cases what <;> simp [Member.kind]
      · rintro _ ⟨rfl⟩
        exact ⟨s, outer, hs, houter, rfl⟩
  | @oneofField group message package s m name hs hkind hparent hm hmessage hpackage =>
      refine ⟨by simp, by simp, ?_⟩
      rintro _ ⟨rfl⟩
      refine ⟨m, m.fullName, hm, ?_, rfl⟩
      rw [Graph.scopeName?, if_neg (by simp [hmessage])]

namespace Builder

theorem Valid.wellNamed_declare {b : Builder} (hb : b.Valid) (hnamed : b.graph.WellNamed)
    (d : Declaration) : (b.declare d).2.graph.WellNamed := by
  rcases hb.declare_cases d with ⟨e, -, hdeclare⟩ | ⟨e, parents, he, hentry, -, hdeclare⟩
  · rw [hdeclare]
    exact hnamed
  · rw [hdeclare]
    have hpush : (b.graph.push e he).WellNamed :=
      Graph.forall_push (P := fun g _ e => g.Names e)
        (fun hext hgrows hold => hold.mono hext hgrows) hnamed hentry.names
    exact Graph.forall_adoptAll (P := fun g _ e => g.Names e)
      (fun hext hgrows hold => hold.mono hext hgrows) hpush

theorem Valid.wellNamed_run {b : Builder} (hb : b.Valid) (hnamed : b.graph.WellNamed)
    (ds : List Declaration) : (b.run ds).graph.WellNamed := by
  induction ds generalizing b with
  | nil => exact hnamed
  | cons d ds ih => exact ih (hb.declare d) (hb.wellNamed_declare hnamed d)

theorem wellNamed_run_start (number : Nat) (ds : List Declaration) :
    ((start number).run ds).graph.WellNamed := by
  apply (valid_start number).wellNamed_run
  intro h e he
  simp [start, Graph.get?, Graph.empty] at he

end Builder

namespace Graph

variable {g : Graph}

/-- A full name goes on from the parent's, but right below a file from the package's. -/
theorem WellNamed.fullName_cases (hnamed : g.WellNamed) (hg : g.WellFormed) {h : Handle}
    {e : Entity} (he : g.get? h = some e) (hfile : e.kind ≠ .file) (hpackage : e.kind ≠ .package) :
    ∃ p s, e.parent = some p ∧ g.get? p = some s ∧ s.kind ∈ e.kind.hosts ∧
      s.package = e.package ∧
      ((s.kind = .file ∧ ∃ package q, e.package = some package ∧ g.get? package = some q ∧
          e.fullName = q.fullName ++ "." ++ e.name) ∨
        (s.kind ≠ .file ∧ e.fullName = s.fullName ++ "." ++ e.name)) := by
  obtain ⟨p, s, hp, hs, hhost⟩ := hg.exists_parent he hfile hpackage
  obtain ⟨s', outer, hs', houter, hfull⟩ := (hnamed h e he).inside p hp
  obtain rfl := Option.some.inj (hs.symm.trans hs')
  obtain ⟨s', hs', -, -, hshared⟩ := (hg h e he).parent p hp
  obtain rfl := Option.some.inj (hs.symm.trans hs')
  refine ⟨p, s, hp, hs, hhost, hshared, ?_⟩
  unfold scopeName? at houter
  split at houter
  · next hsfile =>
      obtain ⟨q, hq, rfl⟩ := Option.map_eq_some_iff.1 houter
      obtain ⟨package, hsome, hget⟩ := Option.bind_eq_some_iff.1 hq
      exact .inl ⟨hsfile, package, q, hshared.symm.trans hsome, hget, hfull⟩
  · next hsfile =>
      obtain rfl := Option.some.inj houter
      exact .inr ⟨hsfile, hfull⟩

/-! ## Full names are distinct -/

theorem Indexed.nodup_fullNames (hg : g.Indexed) : g.fullNames.Nodup := by
  rw [← hg.keys]
  exact g.index.nodup

theorem Indexed.eq_of_fullName_eq (hg : g.Indexed) {h₁ h₂ : Handle} {e₁ e₂ : Entity}
    (he₁ : g.get? h₁ = some e₁) (he₂ : g.get? h₂ = some e₂) (hfull : e₁.fullName = e₂.fullName) :
    h₁ = h₂ := by
  have hgraph₁ : h₁.graph = g.number := graph_eq_of_get? he₁
  have hgraph₂ : h₂.graph = g.number := graph_eq_of_get? he₂
  have hname₁ : g.fullNames[h₁.index]? = some e₁.fullName := by
    rw [fullNames, List.getElem?_map, getElem?_of_get? he₁, Option.map_some]
  have hname₂ : g.fullNames[h₂.index]? = some e₂.fullName := by
    rw [fullNames, List.getElem?_map, getElem?_of_get? he₂, Option.map_some]
  have hlt : h₁.index < g.fullNames.length := (List.getElem?_eq_some_iff.1 hname₁).1
  have hindex : h₁.index = h₂.index := by
    rw [← List.getElem?_inj hlt hg.nodup_fullNames, hname₁, hname₂, hfull]
  calc
    h₁ = ⟨h₁.graph, h₁.index⟩ := rfl
    _ = ⟨h₂.graph, h₂.index⟩ := by rw [hgraph₁, hgraph₂, hindex]
    _ = h₂ := rfl

end Graph

end StubNames.Schema
