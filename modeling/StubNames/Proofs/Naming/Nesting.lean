import StubNames.Naming.Resolver
import StubNames.Proofs.Schema.Lineage
/-!
# Names of nested types

The name of a message or enum joins a part for each message around it, the outermost first, and a
part for itself.  Each part is converted and escaped on its own, and neither the file nor the
package has one.  The name of an enum value goes on from the name of its enum.
-/

namespace StubNames

open Schema (Builder Declaration Entity Graph Handle Kind nestedDeclarations)

namespace Schema.Graph

variable {g : Graph} {h p : Handle} {e s : Entity}

/-- The messages around an entity, the outermost first. -/
def enclosingMessages (g : Graph) (h : Handle) : List Entity :=
  ((g.ancestors h).reverse.filterMap g.get?).filter fun e => e.kind == .message

theorem enclosingMessages_of_message (he : g.get? h = some e) (hp : e.parent = some p)
    (hs : g.get? p = some s) (hkind : s.kind = .message) :
    g.enclosingMessages h = g.enclosingMessages p ++ [s] := by
  rw [enclosingMessages, ancestors_of_parent he hp, List.reverse_cons, List.filterMap_append,
    List.filter_append]
  simp [enclosingMessages, hs, hkind]

theorem WellFormed.enclosingMessages_of_file (hg : g.WellFormed) (he : g.get? h = some e)
    (hp : e.parent = some p) (hs : g.get? p = some s) (hkind : s.kind = .file) :
    g.enclosingMessages h = [] := by
  rw [enclosingMessages, ancestors_of_parent he hp, hg.ancestors_of_file hs hkind]
  simp [hs, hkind]

end Schema.Graph

theorem verbatim_of_isPlain {name : String} (h : Identifier.isPlain name = true) :
    verbatim name = pure ⟨name⟩ := by
  have hfault : Identifier.Grammar.plain.fault? name = none := Option.isNone_iff_eq_none.1 h
  rw [verbatim, Identifier.parse, Identifier.Grammar.read, hfault]
  rfl

namespace Resolver

variable {r : Resolver} {h p : Handle} {e s : Entity}

def typePart (r : Resolver) (e : Entity) : Identifier :=
  r.convention.safeTypeName (upperCamel e.name)

def joinedParts (r : Resolver) (chain : List Entity) : String :=
  "_".intercalate (chain.map fun e => (r.typePart e).text)

theorem joinedParts_singleton (r : Resolver) (e : Entity) :
    r.joinedParts [e] = (r.typePart e).text := by
  simp [joinedParts]

theorem joinedParts_concat (r : Resolver) {chain : List Entity} (hne : chain ≠ []) (e : Entity) :
    r.joinedParts (chain ++ [e]) = r.joinedParts chain ++ "_" ++ (r.typePart e).text := by
  rw [joinedParts, List.map_append,
    String.intercalate_append_of_ne_nil (by simpa using hne) (by simp)]
  simp [joinedParts]

/-! ## One level -/

theorem typeName_of_parent (he : r.graph.get? h = some e) (hp : e.parent = some p)
    (hs : r.graph.get? p = some s) :
    r.typeName h =
      if s.kind = .message then (r.typeName p).map fun outer => outer.join (r.typePart e)
      else .ok (r.typePart e) := by
  rw [typeName]
  split
  · next hnone =>
      rw [he] at hnone
      cases hnone
  · next e' he' =>
      obtain rfl : e = e' := Option.some.inj (he.symm.trans he')
      split
      · next hnone =>
          rw [hp] at hnone
          cases hnone
      · next p' hp' =>
          obtain rfl : p = p' := Option.some.inj (hp.symm.trans hp')
          rw [hs]
          rfl

/-! ## All levels -/

theorem typeName_eq_joinedParts (hg : r.graph.WellFormed) {h : Handle} {e : Entity}
    (he : r.graph.get? h = some e) (hhosts : e.kind.hosts = [.file, .message]) :
    r.typeName h = .ok ⟨r.joinedParts (r.graph.enclosingMessages h ++ [e])⟩ := by
  have hfile : e.kind ≠ .file := by
    intro hkind
    simp [hkind, Kind.hosts] at hhosts
  have hpackage : e.kind ≠ .package := by
    intro hkind
    simp [hkind, Kind.hosts] at hhosts
  obtain ⟨p, s, hp, hs, hkind⟩ := hg.exists_parent he hfile hpackage
  rw [hhosts, List.mem_cons, List.mem_singleton] at hkind
  -- below a file the name is the part alone, below a message it goes on from the message's
  rcases hkind with hkind | hkind
  · have hmessage : s.kind ≠ .message := by simp [hkind]
    rw [typeName_of_parent he hp hs, if_neg hmessage,
      hg.enclosingMessages_of_file he hp hs hkind, List.nil_append, joinedParts_singleton]
  · have houter := typeName_eq_joinedParts hg hs (by rw [hkind]; rfl)
    have hne : r.graph.enclosingMessages p ++ [s] ≠ [] := by simp
    rw [typeName_of_parent he hp hs, if_pos hkind, houter,
      Graph.enclosingMessages_of_message he hp hs hkind, joinedParts_concat r hne]
    rfl
termination_by h.index
decreasing_by exact Graph.parent_lt_of_get? he hp

/-! ## Canonical names -/

theorem entity_of_get? (he : r.graph.get? h = some e) : r.entity h = pure e := by
  rw [entity, he]
  rfl

theorem name_eq_typeName (he : r.graph.get? h = some e)
    (hkind : e.kind = .message ∨ e.kind = .enumeration) : r.name h = r.typeName h := by
  rw [name, entity_of_get? he, pure_bind]
  rcases hkind with hkind | hkind
  · rw [hkind]
  · rw [hkind]

theorem name_of_enumValue (he : r.graph.get? h = some e) (hp : e.parent = some p)
    (hkind : e.kind = .enumValue) (hplain : Identifier.isPlain e.name = true) :
    r.name h = (r.typeName p).map fun outer => outer.join ⟨e.name⟩ := by
  have hlinked : linked h (some p) = pure p := rfl
  rw [name, entity_of_get? he, pure_bind, hkind, hp]
  dsimp only
  rw [verbatim_of_isPlain hplain, pure_bind, hlinked, pure_bind]
  cases r.typeName p <;> rfl

theorem name_of_type (hg : r.graph.WellFormed) (he : r.graph.get? h = some e)
    (hkind : e.kind = .message ∨ e.kind = .enumeration) :
    r.name h = .ok ⟨r.joinedParts (r.graph.enclosingMessages h ++ [e])⟩ := by
  have hhosts : e.kind.hosts = [.file, .message] := by
    rcases hkind with hkind | hkind
    · rw [hkind]
      rfl
    · rw [hkind]
      rfl
  rw [name_eq_typeName he hkind]
  exact typeName_eq_joinedParts hg he hhosts

theorem name_of_plain_enumValue (hg : r.graph.WellFormed) (he : r.graph.get? h = some e)
    (hkind : e.kind = .enumValue) (hplain : Identifier.isPlain e.name = true) :
    ∃ p s, e.parent = some p ∧ r.graph.get? p = some s ∧ s.kind = .enumeration ∧
      r.name h =
        .ok ⟨r.joinedParts (r.graph.enclosingMessages p ++ [s]) ++ "_" ++ e.name⟩ := by
  obtain ⟨p, s, hp, hs, hmem⟩ := hg.exists_parent he (by simp [hkind]) (by simp [hkind])
  have henum : s.kind = .enumeration := by
    rw [hkind] at hmem
    exact List.mem_singleton.1 hmem
  refine ⟨p, s, hp, hs, henum, ?_⟩
  rw [name_of_enumValue he hp hkind hplain,
    typeName_eq_joinedParts hg hs (by rw [henum]; rfl)]
  rfl

end Resolver

/-- Whatever was declared and under any convention, a message or enum has a name, and it joins the
parts of the messages around it and its own.  A plain enum value goes on from that of its enum. -/
theorem name_nested (number : Nat) (ds : List Declaration) (convention : Convention) {h : Handle}
    {e : Entity} (he : ((Builder.start number).run ds).build.get? h = some e) :
    let r : Resolver := ⟨((Builder.start number).run ds).build, convention⟩
    (e.kind = .message ∨ e.kind = .enumeration →
      r.name h = .ok ⟨r.joinedParts (r.graph.enclosingMessages h ++ [e])⟩) ∧
    (e.kind = .enumValue → Identifier.isPlain e.name = true →
      ∃ p s, e.parent = some p ∧ r.graph.get? p = some s ∧ s.kind = .enumeration ∧
        r.name h =
          .ok ⟨r.joinedParts (r.graph.enclosingMessages p ++ [s]) ++ "_" ++ e.name⟩) := by
  intro r
  have hg : r.graph.WellFormed := (Schema.Builder.valid_run_start number ds).wellFormed
  constructor
  · intro hkind
    exact Resolver.name_of_type hg he hkind
  · intro hkind hplain
    exact Resolver.name_of_plain_enumValue hg he hkind hplain

def reservingInner : Convention :=
  { Convention.go with reservedTypes := .ofList ["Inner"] }

/-- Only the part of the inner message is reserved, so only that part is escaped. -/
theorem name_nested_color :
    let r : Resolver := ⟨((Builder.start 1).run nestedDeclarations).build, reservingInner⟩
    r.name ⟨1, 4⟩ = .ok ⟨"Outer_Inner__Color"⟩ ∧
      r.name ⟨1, 5⟩ = .ok ⟨"Outer_Inner__Color_RED"⟩ := by
  intro r
  have hcolor : r.graph.get? ⟨1, 4⟩ = some ⟨.enumeration, "color", ".demo.outer.inner.color",
      some ⟨1, 3⟩, some ⟨1, 0⟩, [⟨1, 5⟩]⟩ := by
    decide +kernel
  have hred : r.graph.get? ⟨1, 5⟩ = some ⟨.enumValue, "RED", ".demo.outer.inner.color.RED",
      some ⟨1, 4⟩, some ⟨1, 0⟩, []⟩ := by
    decide +kernel
  constructor
  · rw [(name_nested 1 nestedDeclarations reservingInner hcolor).1 (.inr rfl)]
    exact congrArg (fun text => Except.ok (Identifier.mk text)) (by decide +kernel)
  · obtain ⟨p, s, hp, hs, -, hname⟩ :=
      (name_nested 1 nestedDeclarations reservingInner hred).2 rfl (by decide +kernel)
    obtain rfl : ⟨1, 4⟩ = p := Option.some.inj hp
    obtain rfl := Option.some.inj (hcolor.symm.trans hs)
    rw [hname]
    exact congrArg (fun text => Except.ok (Identifier.mk text)) (by decide +kernel)

end StubNames
