import StubNames.Proofs.Naming.TypePath
/-!
# Canonical names, kind by kind

In a well-formed graph every link that the resolver follows leads somewhere, so what remains of a
name is the conversion of declared names: one equation for each kind of entity.  Only a name that
is kept as it is can fail, and then it fails as an identifier.
-/

namespace StubNames

open Schema (Entity Graph Handle Kind)

def Schema.Kind.IsField (k : Kind) : Prop :=
  k = .oneofGroup ∨ ∃ oneof, k = .field oneof

theorem Schema.Graph.WellFormed.exists_package {g : Graph} (hg : g.WellFormed) {h : Handle}
    {e : Entity} (he : g.get? h = some e) (hkind : e.kind ≠ .package) :
    ∃ p q, e.package = some p ∧ g.get? p = some q ∧ q.kind = .package := by
  have hplaced := hg h e he
  obtain ⟨p, hp⟩ : ∃ p, e.package = some p := by
    rw [← Option.ne_none_iff_exists', Ne, hplaced.package_eq_none]
    exact hkind
  obtain ⟨q, hq, -, hqkind⟩ := hplaced.package p hp
  exact ⟨p, q, hp, hq, hqkind⟩

theorem Schema.Entity.exists_kind_of_oneof_ne_none {e : Entity} (h : e.oneof ≠ none) :
    ∃ group, e.kind = .field (some group) := by
  obtain ⟨group, hgroup⟩ := Option.ne_none_iff_exists'.1 h
  exact ⟨group, oneof_eq_some_iff.1 hgroup⟩

namespace Resolver

variable {r : Resolver} {h : Handle} {e : Entity}

theorem name_of_package (he : r.graph.get? h = some e) (hkind : e.kind = .package) :
    r.name h = verbatim (lastPart e.name) := by
  rw [name, entity_of_get? he, pure_bind, hkind]

theorem name_of_file (hg : r.graph.WellFormed) (he : r.graph.get? h = some e)
    (hkind : e.kind = .file) :
    ∃ p q, e.package = some p ∧ r.graph.get? p = some q ∧
      r.name h = verbatim (lastPart q.name) := by
  obtain ⟨p, q, hp, hq, -⟩ := hg.exists_package he (by simp [hkind])
  refine ⟨p, q, hp, hq, ?_⟩
  have hlinked : linked h (some p) = pure p := rfl
  rw [name, entity_of_get? he, pure_bind, hkind, hp]
  show (linked h (some p) >>= fun p => r.entity p >>= _) = _
  rw [hlinked, pure_bind, entity_of_get? hq, pure_bind]

theorem name_of_enumValue_eq_map (hg : r.graph.WellFormed) (he : r.graph.get? h = some e)
    (hkind : e.kind = .enumValue) :
    ∃ p s, e.parent = some p ∧ r.graph.get? p = some s ∧ s.kind = .enumeration ∧
      r.name h = (verbatim e.name).map
        (Identifier.join ⟨r.convention.typeText (r.graph.typePath p s)⟩) := by
  obtain ⟨p, s, hp, hs, hmem⟩ := hg.exists_parent he (by simp [hkind]) (by simp [hkind])
  have henum : s.kind = .enumeration := by
    rw [hkind] at hmem
    exact List.mem_singleton.1 hmem
  refine ⟨p, s, hp, hs, henum, ?_⟩
  have houter := typeName_eq_typeText hg hs (by rw [henum]; rfl)
  rw [name, entity_of_get? he, pure_bind, hkind, hp]
  -- the value's own name is read first, and the enum's never fails
  cases verbatim e.name with
  | error x => rfl
  | ok value =>
      show (r.typeName p >>= fun outer => pure (outer.join value)) = _
      rw [houter]
      rfl

theorem name_of_isField (he : r.graph.get? h = some e) (hkind : e.kind.IsField) :
    r.name h = .ok (r.fieldName e) := by
  rw [Resolver.name, Resolver.entity_of_get? he, pure_bind]
  rcases hkind with hkind | ⟨oneof, hkind⟩ <;> rw [hkind] <;> rfl

theorem serviceName_of_service (he : r.graph.get? h = some e) (hkind : e.kind = .service)
    (request : NameRequest) (suffix : Suffix) :
    r.serviceName request suffix h = .ok ((upperCamel e.name).withSuffix suffix) := by
  rw [serviceName, entity_of_get? he, pure_bind, if_pos hkind]
  rfl

theorem name_of_service (he : r.graph.get? h = some e) (hkind : e.kind = .service) :
    r.name h = .ok ((upperCamel e.name).withSuffix r.convention.serverSuffix) := by
  rw [name, entity_of_get? he, pure_bind, hkind]
  rfl

theorem name_of_method (he : r.graph.get? h = some e) (hkind : e.kind = .method) :
    r.name h = .ok (upperCamel e.name) := by
  rw [name, entity_of_get? he, pure_bind, hkind]
  rfl

end Resolver

end StubNames
