import StubNames.Proofs.Naming.Nesting
/-!
# Paths of types

The declared names of the messages around an entity, the outermost first, and its own after them.
A path goes on from that of the message right around, and a convention makes a name of it.
-/

namespace StubNames

open Schema (Entity Graph Handle Kind)

def Schema.Kind.IsType (k : Kind) : Prop :=
  k = .message ∨ k = .enumeration

namespace Schema.Graph

variable {g : Graph} {h p : Handle} {e s : Entity}

def typePath (g : Graph) (h : Handle) (e : Entity) : List String :=
  (g.enclosingMessages h ++ [e]).map Entity.name

theorem typePath_ne_nil : g.typePath h e ≠ [] := by
  simp [typePath]

theorem typePath_of_message (he : g.get? h = some e) (hp : e.parent = some p)
    (hs : g.get? p = some s) (hkind : s.kind = .message) :
    g.typePath h e = g.typePath p s ++ [e.name] := by
  rw [typePath, enclosingMessages_of_message he hp hs hkind]
  simp [typePath]

theorem WellFormed.typePath_of_file (hg : g.WellFormed) (he : g.get? h = some e)
    (hp : e.parent = some p) (hs : g.get? p = some s) (hkind : s.kind = .file) :
    g.typePath h e = [e.name] := by
  rw [typePath, hg.enclosingMessages_of_file he hp hs hkind]
  rfl

end Schema.Graph

namespace Convention

def typePart (c : Convention) (name : String) : Identifier :=
  c.safeTypeName (upperCamel name)

def typeText (c : Convention) (path : List String) : String :=
  "_".intercalate (path.map fun name => (c.typePart name).text)

theorem typeText_singleton (c : Convention) (name : String) :
    c.typeText [name] = (c.typePart name).text := by
  simp [typeText]

theorem typeText_concat (c : Convention) {path : List String} (hne : path ≠ []) (name : String) :
    c.typeText (path ++ [name]) = c.typeText path ++ "_" ++ (c.typePart name).text := by
  rw [typeText, List.map_append, String.intercalate_append_of_ne_nil (by simpa using hne) (by simp)]
  simp [typeText]

end Convention

namespace Resolver

theorem joinedParts_eq_typeText (r : Resolver) (chain : List Entity) :
    r.joinedParts chain = r.convention.typeText (chain.map Entity.name) := by
  rw [joinedParts, Convention.typeText, List.map_map]
  rfl

variable {r : Resolver} {h p : Handle} {e s : Entity}

theorem typeName_eq_typeText (hg : r.graph.WellFormed) (he : r.graph.get? h = some e)
    (hhosts : e.kind.hosts = [.file, .message]) :
    r.typeName h = .ok ⟨r.convention.typeText (r.graph.typePath h e)⟩ := by
  rw [typeName_eq_joinedParts hg he hhosts, joinedParts_eq_typeText]
  rfl

theorem name_of_type_eq_typeText (hg : r.graph.WellFormed) (he : r.graph.get? h = some e)
    (hkind : e.kind.IsType) :
    r.name h = .ok ⟨r.convention.typeText (r.graph.typePath h e)⟩ := by
  rw [name_of_type hg he hkind, joinedParts_eq_typeText]
  rfl

/-- A oneof member is in a message, and its option goes on from the message's name. -/
theorem oneofOption_of_member (hg : r.graph.WellFormed) (he : r.graph.get? h = some e)
    {group : Handle} (hkind : e.kind = .field (some group)) :
    ∃ p s, e.parent = some p ∧ r.graph.get? p = some s ∧ s.kind = .message ∧
      r.oneofOption h =
        .ok (Identifier.join ⟨r.convention.typeText (r.graph.typePath p s)⟩ (r.fieldName e)) := by
  obtain ⟨p, s, hp, hs, hmem⟩ := hg.exists_parent he (by simp [hkind]) (by simp [hkind])
  have hmessage : s.kind = .message := by
    rw [hkind] at hmem
    exact List.mem_singleton.1 hmem
  have hlinked : linked h (some p) = pure p := rfl
  refine ⟨p, s, hp, hs, hmessage, ?_⟩
  rw [oneofOption, entity_of_get? he, pure_bind, hkind, hp]
  dsimp only
  rw [hlinked, pure_bind, typeName_eq_typeText hg hs (by rw [hmessage]; rfl)]
  rfl

end Resolver

end StubNames
