import StubNames.Proofs.Naming.Alike
import StubNames.Proofs.Naming.OnRequest
import StubNames.Proofs.Schema.Extension
/-!
# Names in graphs that go on from one

Two graphs that extend the same graph agree on the lineages of all that is in it.  What is declared
in both of them, under the same parent and package, therefore has the same names in both, and where
it has none, the errors are the same.
-/

namespace StubNames

open Schema (Builder Declaration Entity Graph Handle Kind)

namespace Schema

theorem Entity.Agrees.alike {e e' : Entity} (h : e.Agrees e') : e.Alike e' where
  kind := by rw [h.kind]
  name _ := h.name

namespace Graph

variable {g₀ g g' : Graph} {h h' : Handle} {e e' : Entity}

/-- The entities `e` and `e'` tell the same of themselves and of what is around them. -/
structure Agrees (g g' : Graph) (h h' : Handle) (e e' : Entity) : Prop where
  here : g.get? h = some e
  here' : g'.get? h' = some e'
  entity : e.Agrees e'
  alike : g.Alike g' h h'
  packageName? : g.packageName? e = g'.packageName? e'

/-- Where the two parents are one handle, the lineages read the same if they do from there. -/
theorem alike_of_parent (he : g.get? h = some e) (he' : g'.get? h' = some e')
    (hentity : e.Agrees e') (hparent : ∀ p, e.parent = some p → g.Alike g' p p) :
    g.Alike g' h h' := by
  cases hp : e.parent with
  | none =>
      rw [Alike, lineage_of_parent_none he hp,
        lineage_of_parent_none he' (hentity.parent.symm.trans hp)]
      exact .cons hentity.alike .nil
  | some p =>
      rw [Alike, lineage_of_parent he hp, lineage_of_parent he' (hentity.parent.symm.trans hp)]
      exact .cons hentity.alike (hparent p hp)

namespace Extends

theorem alike (hext : g₀.Extends g) (hext' : g₀.Extends g') (hg₀ : g₀.WellFormed) {h : Handle}
    {e₀ : Entity} (he₀ : g₀.get? h = some e₀) : g.Alike g' h h := by
  obtain ⟨e, he, hgrows⟩ := hext.grows h e₀ he₀
  obtain ⟨e', he', hgrows'⟩ := hext'.grows h e₀ he₀
  refine alike_of_parent he he' (hgrows.agrees hgrows') fun p hp => ?_
  have hp₀ : e₀.parent = some p := hgrows.parent ▸ hp
  obtain ⟨s, hs, -⟩ := (hg₀ h e₀ he₀).parent p hp₀
  exact hext.alike hext' hg₀ hs
termination_by h.index
decreasing_by exact parent_lt_of_get? he₀ hp₀

/-- Two graphs that extend the same graph agree on an entity that has its place in it, wherever the
entity is in each of them. -/
theorem agrees (hext : g₀.Extends g) (hext' : g₀.Extends g') (hg₀ : g₀.WellFormed) {x : Handle}
    {e₀ : Entity} (hplaced : g₀.WellPlaced x e₀) (he : g.get? h = some e) (hgrows : e₀.Grows e)
    (he' : g'.get? h' = some e') (hgrows' : e₀.Grows e') : g.Agrees g' h h' e e' where
  here := he
  here' := he'
  entity := hgrows.agrees hgrows'
  alike := by
    refine alike_of_parent he he' (hgrows.agrees hgrows') fun p hp => ?_
    obtain ⟨s, hs, -⟩ := hplaced.parent p (hgrows.parent ▸ hp)
    exact hext.alike hext' hg₀ hs
  packageName? := by
    rw [Graph.packageName?, Graph.packageName?, hgrows.package, hgrows'.package]
    cases hp : e₀.package with
    | none => rfl
    | some p =>
        obtain ⟨q, hq, -⟩ := hplaced.package p hp
        obtain ⟨s, hs, hqgrows⟩ := hext.grows p q hq
        obtain ⟨s', hs', hqgrows'⟩ := hext'.grows p q hq
        rw [Option.bind_some, Option.bind_some, hs, hs', Option.map_some, Option.map_some,
          hqgrows.name, hqgrows'.name]

end Extends

end Graph

end Schema

namespace Resolver

/-- What the resolver says of a handle and what another one says of another handle are the same,
whether they are names or errors. -/
structure Concurs (r r' : Resolver) (h h' : Handle) : Prop where
  name : r.name h = r'.name h'
  oneofOption : r.oneofOption h = r'.oneofOption h'
  clientName : r.clientName h = r'.clientName h'
  serverName : r.serverName h = r'.serverName h'

variable {g g' : Graph} {h h' : Handle} {e e' : Entity}

theorem oneofOption_eq_of_agrees (hagrees : g.Agrees g' h h' e e') (convention : Convention)
    (htwins : Twins ⟨g, convention⟩ ⟨g', convention⟩ h h' e e') :
    (Resolver.mk g convention).oneofOption h = (Resolver.mk g' convention).oneofOption h' := by
  have hkind := hagrees.entity.kind
  by_cases hfield : ∃ oneof, e.kind = .field oneof
  · obtain ⟨oneof, hplain⟩ := hfield
    cases oneof with
    | none =>
        rw [oneofOption_of_plain_field hagrees.here hplain,
          oneofOption_of_plain_field hagrees.here' (hkind.symm.trans hplain),
          hagrees.entity.fullName]
    | some group => exact htwins.oneofOption_eq hplain (hkind.symm.trans hplain)
  · have hother : ∀ oneof, e.kind ≠ .field oneof := fun oneof heq => hfield ⟨oneof, heq⟩
    rw [oneofOption_of_not_field hagrees.here hother,
      oneofOption_of_not_field hagrees.here' (hkind ▸ hother), hkind]

theorem serviceName_eq_of_agrees (hagrees : g.Agrees g' h h' e e') (convention : Convention)
    (request : NameRequest) (suffix : Suffix) :
    (Resolver.mk g convention).serviceName request suffix h =
      (Resolver.mk g' convention).serviceName request suffix h' := by
  have hkind := hagrees.entity.kind
  by_cases hservice : e.kind = .service
  · rw [serviceName_of_service hagrees.here hservice,
      serviceName_of_service hagrees.here' (hkind.symm.trans hservice), hagrees.entity.name]
  · rw [serviceName_of_not_service hagrees.here hservice,
      serviceName_of_not_service hagrees.here' (hkind ▸ hservice), hkind]

theorem concurs_of_agrees (hg : g.WellFormed) (hg' : g'.WellFormed)
    (hagrees : g.Agrees g' h h' e e') (convention : Convention) :
    Concurs ⟨g, convention⟩ ⟨g', convention⟩ h h' := by
  have htwins : Twins ⟨g, convention⟩ ⟨g', convention⟩ h h' e e' :=
    ⟨hg, hg', rfl, hagrees.here, hagrees.here', hagrees.alike⟩
  exact {
    name := htwins.name_eq fun _ => hagrees.packageName?
    oneofOption := oneofOption_eq_of_agrees hagrees convention htwins
    clientName := serviceName_eq_of_agrees hagrees convention _ _
    serverName := serviceName_eq_of_agrees hagrees convention _ _ }

end Resolver

end StubNames
