import Mathlib.Data.List.TakeWhile
import StubNames.Proofs.Naming.Canonical
import StubNames.Proofs.Naming.Isolation
/-!
# Names that do not exist

An entity has no canonical name for one reason alone: a name that is kept as it is, that of an enum
value or the last part of a package's path, is not an identifier.  All the links that the resolver
follows lead somewhere, so an unknown entity is the one that was asked for.
-/

namespace StubNames

open Schema (Builder Declaration Entity Graph Handle Kind)

/-! ## The last part of a path -/

/-- What follows the last dot of a path, or the whole path if it has no dot. -/
def IsLastPart (path last : String) : Prop :=
  '.' ∉ last.toList ∧ (path = last ∨ ∃ outer, path = outer ++ "." ++ last)

theorem toList_lastPart (path : String) :
    (lastPart path).toList = (path.toList.reverse.takeWhile (· != '.')).reverse := by
  rw [lastPart, String.toList_ofList]

theorem takeWhile_ne_dot {cs : List Char} (hdot : '.' ∉ cs) : cs.takeWhile (· != '.') = cs := by
  rw [List.takeWhile_eq_self_iff]
  intro c hc
  have hne : c ≠ '.' := fun heq => hdot (heq ▸ hc)
  simpa using hne

theorem isLastPart_lastPart (path : String) : IsLastPart path (lastPart path) := by
  constructor
  · rw [toList_lastPart, List.mem_reverse]
    intro hdot
    simpa using List.mem_takeWhile_imp hdot
  · have hsplit : path.toList = (path.toList.reverse.dropWhile (· != '.')).reverse ++
        (lastPart path).toList := by
      rw [toList_lastPart, ← List.reverse_append, List.takeWhile_append_dropWhile,
        List.reverse_reverse]
    have hhead := List.head?_dropWhile_not (· != '.') path.toList.reverse
    cases hrest : path.toList.reverse.dropWhile (· != '.') with
    | nil =>
        rw [hrest, List.reverse_nil, List.nil_append] at hsplit
        exact .inl (String.toList_inj.1 hsplit)
    | cons c rest =>
        rw [hrest, List.head?_cons] at hhead
        obtain rfl : c = '.' := by simpa using hhead
        refine .inr ⟨String.ofList rest.reverse, String.toList_inj.1 ?_⟩
        rw [String.toList_append, String.toList_append, String.toList_ofList, hsplit, hrest,
          List.reverse_cons]
        rfl

theorem IsLastPart.eq_lastPart {path last : String} (h : IsLastPart path last) :
    last = lastPart path := by
  obtain ⟨hdot, hpath⟩ := h
  have hwhole : last.toList.reverse.takeWhile (· != '.') = last.toList.reverse :=
    takeWhile_ne_dot (mt List.mem_reverse.1 hdot)
  apply String.toList_inj.1
  rcases hpath with rfl | ⟨outer, rfl⟩
  · rw [toList_lastPart, hwhole, List.reverse_reverse]
  · have hreverse : (outer ++ "." ++ last).toList.reverse =
        last.toList.reverse ++ '.' :: outer.toList.reverse := by
      simp
    rw [toList_lastPart, hreverse, List.takeWhile_append, if_pos (by rw [hwhole])]
    simp

/-! ## Names that are kept as they are -/

theorem verbatim_eq_error_iff {name : String} {x : NamingError} :
    verbatim name = .error x ↔
      ∃ fault, Identifier.Grammar.plain.fault? name = some fault ∧
        x = .invalidIdentifier name fault := by
  rw [verbatim, Identifier.parse, Identifier.Grammar.read]
  cases hfault : Identifier.Grammar.plain.fault? name with
  | none => simp [Except.mapError]
  | some fault => simp [Except.mapError, eq_comm]

theorem exists_fault_of_not_isPlain {name : String} (hname : ¬Identifier.isPlain name = true) :
    ∃ fault, Identifier.Grammar.plain.fault? name = some fault := by
  rw [← Option.ne_none_iff_exists']
  exact fun hnone => hname (Option.isNone_iff_eq_none.2 hnone)

namespace Resolver

variable {r : Resolver} {h : Handle} {e q : Entity} {x : NamingError}

/-- The package that an entity is named after: a package itself, and a file the one that it
belongs to. -/
inductive NamedAfter (r : Resolver) (h : Handle) (q : Entity) : Prop where
  | package (hq : r.graph.get? h = some q) (hkind : q.kind = .package)
  | file {e : Entity} {p : Handle} (he : r.graph.get? h = some e) (hkind : e.kind = .file)
      (hp : e.package = some p) (hq : r.graph.get? p = some q) (hpackage : q.kind = .package)

/-- Why a handle has no canonical name. -/
inductive Unnamed (r : Resolver) (h : Handle) : NamingError → Prop where
  | foreign (hnone : r.graph.get? h = none) : Unnamed r h (.unknownEntity h)
  | path {q : Entity} {last : String} {fault : IdentifierError} (hq : r.NamedAfter h q)
      (hlast : IsLastPart q.name last)
      (hfault : Identifier.Grammar.plain.fault? last = some fault) :
      Unnamed r h (.invalidIdentifier last fault)
  | enumValue {e : Entity} {fault : IdentifierError} (he : r.graph.get? h = some e)
      (hkind : e.kind = .enumValue)
      (hfault : Identifier.Grammar.plain.fault? e.name = some fault) :
      Unnamed r h (.invalidIdentifier e.name fault)

theorem NamedAfter.name_eq (hg : r.graph.WellFormed) (hq : r.NamedAfter h q) :
    r.name h = verbatim (lastPart q.name) := by
  cases hq with
  | package hq hkind => exact name_of_package hq hkind
  | @file e p he hkind hp hq hpackage =>
      obtain ⟨p', q', hp', hq', hname⟩ := name_of_file hg he hkind
      obtain rfl : p = p' := Option.some.inj (hp.symm.trans hp')
      obtain rfl : q = q' := Option.some.inj (hq.symm.trans hq')
      exact hname

theorem exists_namedAfter (hg : r.graph.WellFormed) (he : r.graph.get? h = some e)
    (hkind : e.kind = .package ∨ e.kind = .file) : ∃ q, r.NamedAfter h q := by
  rcases hkind with hkind | hkind
  · exact ⟨e, .package he hkind⟩
  · obtain ⟨p, q, hp, hq, hpackage⟩ := hg.exists_package he (by simp [hkind])
    exact ⟨q, .file he hkind hp hq hpackage⟩

theorem name_of_enumValue_eq_error (hg : r.graph.WellFormed) (he : r.graph.get? h = some e)
    (hkind : e.kind = .enumValue) (herror : verbatim e.name = .error x) : r.name h = .error x := by
  obtain ⟨p, s, -, -, -, hname⟩ := name_of_enumValue_eq_map hg he hkind
  rw [hname, herror]
  rfl

/-- An entity with a name of another sort is never without it. -/
theorem exists_name (hg : r.graph.WellFormed) (he : r.graph.get? h = some e)
    (hpackage : e.kind ≠ .package) (hfile : e.kind ≠ .file)
    (hplain : e.kind = .enumValue → Identifier.isPlain e.name = true) :
    ∃ n, r.name h = .ok n := by
  cases hkind : e.kind with
  | package => exact absurd hkind hpackage
  | file => exact absurd hkind hfile
  | message => exact ⟨_, name_of_type hg he (.inl hkind)⟩
  | enumeration => exact ⟨_, name_of_type hg he (.inr hkind)⟩
  | enumValue =>
      obtain ⟨p, s, -, -, -, hname⟩ := name_of_plain_enumValue hg he hkind (hplain hkind)
      exact ⟨_, hname⟩
  | field oneof => exact ⟨_, name_of_isField he (.inr ⟨oneof, hkind⟩)⟩
  | oneofGroup => exact ⟨_, name_of_isField he (.inl hkind)⟩
  | service => exact ⟨_, name_of_service he hkind⟩
  | method => exact ⟨_, name_of_method he hkind⟩

theorem Unnamed.name_eq_error (hg : r.graph.WellFormed) (hx : r.Unnamed h x) :
    r.name h = .error x := by
  cases hx with
  | foreign hnone => exact (Graph.rejects_of_get?_eq_none hnone).name r.convention
  | path hq hlast hfault =>
      rw [hq.name_eq hg, ← hlast.eq_lastPart, verbatim_eq_error_iff]
      exact ⟨_, hfault, rfl⟩
  | enumValue he hkind hfault =>
      exact name_of_enumValue_eq_error hg he hkind (verbatim_eq_error_iff.2 ⟨_, hfault, rfl⟩)

theorem unnamed_of_name_eq_error (hg : r.graph.WellFormed) (herror : r.name h = .error x) :
    r.Unnamed h x := by
  cases he : r.graph.get? h with
  | none =>
      rw [(Graph.rejects_of_get?_eq_none he).name r.convention] at herror
      obtain rfl := Except.error.inj herror
      exact .foreign he
  | some e =>
      by_cases hpath : e.kind = .package ∨ e.kind = .file
      · obtain ⟨q, hq⟩ := exists_namedAfter hg he hpath
        rw [hq.name_eq hg] at herror
        obtain ⟨fault, hfault, rfl⟩ := verbatim_eq_error_iff.1 herror
        exact .path hq (isLastPart_lastPart q.name) hfault
      · -- a name of another sort can only fail for an enum value, and then by its own name
        have hvalue : ¬(e.kind = .enumValue → Identifier.isPlain e.name = true) := by
          intro hplain
          obtain ⟨n, hname⟩ :=
            exists_name hg he (fun hkind => hpath (.inl hkind)) (fun hkind => hpath (.inr hkind))
              hplain
          rw [hname] at herror
          cases herror
        obtain ⟨hkind, hfaulty⟩ := Classical.not_imp.1 hvalue
        obtain ⟨fault, hfault⟩ := exists_fault_of_not_isPlain hfaulty
        have hname := name_of_enumValue_eq_error hg he hkind
          (verbatim_eq_error_iff.2 ⟨fault, hfault, rfl⟩)
        obtain rfl := Except.error.inj (herror.symm.trans hname)
        exact .enumValue he hkind hfault

theorem name_eq_error_iff (hg : r.graph.WellFormed) : r.name h = .error x ↔ r.Unnamed h x :=
  ⟨unnamed_of_name_eq_error hg, fun hx => hx.name_eq_error hg⟩

theorem unnamed_unknownEntity_iff {k : Handle} :
    r.Unnamed h (.unknownEntity k) ↔ k = h ∧ r.graph.get? h = none := by
  constructor
  · intro hx
    cases hx with
    | foreign hnone => exact ⟨rfl, hnone⟩
  · rintro ⟨rfl, hnone⟩
    exact .foreign hnone

end Resolver

/-- Whatever was declared and under any convention, a handle has no canonical name exactly for the
reasons of `Resolver.Unnamed`.  What is named after a package has the last part of its path as a
name, and all that is named in another way, enum values apart, has a name. -/
theorem name_fails_iff (number : Nat) (ds : List Declaration) (convention : Convention)
    (h : Handle) :
    let r : Resolver := ⟨((Builder.start number).run ds).build, convention⟩
    (∀ x, r.name h = .error x ↔ r.Unnamed h x) ∧
    (∀ k, r.name h = .error (.unknownEntity k) ↔ k = h ∧ r.graph.get? h = none) ∧
    (∀ request found, r.name h ≠ .error (.wrongKind request found)) ∧
    (∀ fullName, r.name h ≠ .error (.notOneofMember fullName)) ∧
    (∀ e, r.graph.get? h = some e → e.kind = .package ∨ e.kind = .file →
      ∃ q last, r.NamedAfter h q ∧ IsLastPart q.name last) ∧
    (∀ q last, r.NamedAfter h q → IsLastPart q.name last → Identifier.isPlain last = true →
      r.name h = .ok ⟨last⟩) ∧
    ∀ e, r.graph.get? h = some e → e.kind ≠ .package → e.kind ≠ .file →
      (e.kind = .enumValue → Identifier.isPlain e.name = true) → ∃ n, r.name h = .ok n := by
  intro r
  have hg : r.graph.WellFormed := (Builder.valid_run_start number ds).wellFormed
  have herror : ∀ x, r.name h = .error x ↔ r.Unnamed h x := fun x => Resolver.name_eq_error_iff hg
  refine ⟨herror, fun k => ?_, fun request found => ?_, fun fullName => ?_, fun e he hkind => ?_,
    fun q last hq hlast hplain => ?_, fun e he => Resolver.exists_name hg he⟩
  · rw [herror, Resolver.unnamed_unknownEntity_iff]
  · rw [Ne, herror]
    rintro ⟨⟩
  · rw [Ne, herror]
    rintro ⟨⟩
  · obtain ⟨q, hq⟩ := Resolver.exists_namedAfter hg he hkind
    exact ⟨q, lastPart q.name, hq, isLastPart_lastPart q.name⟩
  · rw [hq.name_eq hg, ← hlast.eq_lastPart, verbatim_of_isPlain hplain]
    rfl

def versionedDeclarations : List Declaration :=
  [.package "acme.2024", .file ⟨1, 0⟩ "acme.proto", .member .enumeration ⟨1, 1⟩ "status",
    .member .enumValue ⟨1, 2⟩ "not-ok", .member .enumValue ⟨1, 2⟩ "OK", .package "acme..v1"]

theorem name_fails_iff_versioned :
    let r : Resolver := ⟨((Builder.start 1).run versionedDeclarations).build, .go⟩
    r.name ⟨1, 1⟩ = .error (.invalidIdentifier "2024" (.invalidStart '2')) ∧
      r.name ⟨1, 3⟩ = .error (.invalidIdentifier "not-ok" (.invalidChar '-' 3)) ∧
      (∃ n, r.name ⟨1, 4⟩ = .ok n) ∧ r.name ⟨1, 5⟩ = .ok ⟨"v1"⟩ ∧
      r.name ⟨1, 6⟩ = .error (.unknownEntity ⟨1, 6⟩) := by
  intro r
  have hacme : r.graph.get? ⟨1, 0⟩ =
      some ⟨.package, "acme.2024", ".acme.2024", none, none, []⟩ := by
    decide +kernel
  have hfile : r.graph.get? ⟨1, 1⟩ = some ⟨.file, "acme.proto", "acme.proto", none, some ⟨1, 0⟩,
      [⟨1, 2⟩]⟩ := by
    decide +kernel
  have hnotOk : r.graph.get? ⟨1, 3⟩ = some ⟨.enumValue, "not-ok", ".acme.2024.status.not-ok",
      some ⟨1, 2⟩, some ⟨1, 0⟩, []⟩ := by
    decide +kernel
  have hok : r.graph.get? ⟨1, 4⟩ = some ⟨.enumValue, "OK", ".acme.2024.status.OK", some ⟨1, 2⟩,
      some ⟨1, 0⟩, []⟩ := by
    decide +kernel
  have hv1 : r.graph.get? ⟨1, 5⟩ = some ⟨.package, "acme..v1", ".acme..v1", none, none, []⟩ := by
    decide +kernel
  have hlast : IsLastPart "acme.2024" "2024" := ⟨by decide, .inr ⟨"acme", rfl⟩⟩
  have hlast' : IsLastPart "acme..v1" "v1" := ⟨by decide, .inr ⟨"acme.", rfl⟩⟩
  have hfails := name_fails_iff 1 versionedDeclarations .go
  refine ⟨?_, ?_, ?_, ?_, ?_⟩
  · exact ((hfails ⟨1, 1⟩).1 _).2
      (.path (.file hfile rfl rfl hacme rfl) hlast (by decide +kernel))
  · exact ((hfails ⟨1, 3⟩).1 _).2 (.enumValue hnotOk rfl (by decide +kernel))
  · exact (hfails ⟨1, 4⟩).2.2.2.2.2.2 _ hok (by simp) (by simp) fun _ => by decide +kernel
  · exact (hfails ⟨1, 5⟩).2.2.2.2.2.1 _ _ (.package hv1 rfl) hlast' (by decide +kernel)
  · exact ((hfails ⟨1, 6⟩).2.1 _).2 ⟨rfl, by decide +kernel⟩

end StubNames
