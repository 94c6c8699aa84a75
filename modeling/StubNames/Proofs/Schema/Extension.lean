import StubNames.Proofs.Schema.Catalogue
/-!
# Later declarations

A declaration that is refused changes nothing, and one that is made puts an entity behind all
others and lists it under at most two of them.  So a run only extends the graph that it finds:
handles lead to the same entities, full names to the same handles, and listings go on.
-/

namespace StubNames.Schema

/-- Two entities that tell the same of themselves, whatever they enclose. -/
structure Entity.Agrees (e e' : Entity) : Prop where
  kind : e.kind = e'.kind
  name : e.name = e'.name
  fullName : e.fullName = e'.fullName
  parent : e.parent = e'.parent
  package : e.package = e'.package

theorem Entity.Grows.agrees {e₀ e e' : Entity} (h : e₀.Grows e) (h' : e₀.Grows e') :
    e.Agrees e' where
  kind := h.kind.trans h'.kind.symm
  name := h.name.trans h'.name.symm
  fullName := h.fullName.trans h'.fullName.symm
  parent := h.parent.trans h'.parent.symm
  package := h.package.trans h'.package.symm

namespace Graph

variable {g g' : Graph} {h : Handle}

theorem Extends.lookup_eq_some (hext : g.Extends g') (hg : g.Indexed) (hg' : g'.Indexed)
    {s : String} (hs : g.lookup s = some h) : g'.lookup s = some h := by
  obtain ⟨e, he, hfull⟩ := hg.lookup_eq_some_iff.1 hs
  obtain ⟨e', he', hgrows⟩ := hext.grows h e he
  exact hg'.lookup_eq_some_iff.2 ⟨e', he', hgrows.fullName.trans hfull⟩

theorem Indexed.map_fst_toList (hg : g.Indexed) : g.toList.map Prod.fst = g.handles := by
  rw [hg.toList_eq_declared, declared]
  exact List.map_fst_zip (Nat.le_of_eq length_handles)

end Graph

namespace Builder

variable {b : Builder}

theorem Valid.extends_declare (hb : b.Valid) (d : Declaration) :
    b.graph.Extends (b.declare d).2.graph := by
  rcases hb.declare_cases d with ⟨x, -, hdeclare⟩ | ⟨e, parents, he, -, -, hdeclare⟩
  · rw [hdeclare]
    exact .refl b.graph
  · rw [hdeclare]
    exact Graph.extends_push.trans Graph.extends_adoptAll

theorem Valid.extends_run (hb : b.Valid) (ds : List Declaration) :
    b.graph.Extends (b.run ds).graph := by
  induction ds generalizing b with
  | nil => exact .refl b.graph
  | cons d ds ih => exact (hb.extends_declare d).trans (ih (hb.declare d))

theorem Valid.toList_prefix_run (hb : b.Valid) (ds : List Declaration) :
    b.graph.toList.map Prod.fst <+: (b.run ds).graph.toList.map Prod.fst := by
  rw [hb.indexed.map_fst_toList, (hb.run ds).indexed.map_fst_toList, hb.handles_run ds]
  exact List.prefix_append _ _

end Builder

end StubNames.Schema
