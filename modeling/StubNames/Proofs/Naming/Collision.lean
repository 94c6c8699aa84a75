import Mathlib.Data.List.Basic
import StubNames.Config.Load
import StubNames.Naming.Table
import StubNames.Proofs.Naming.TypePath
import StubNames.Proofs.Schema.FullName
/-!
# Colliding type identifiers

Full names keep the declared names apart, but the identifiers of the generated types are joined
from converted and escaped names, and nobody compares them.  What is left of a path in its
identifier are the words between the underscores: two types of a package collide exactly if their
parts have the same words.
-/

namespace StubNames

open Schema (Builder Declaration Entity Graph Handle Kind)

/-! ## Paths are distinct -/

namespace Schema

theorem Kind.eq_file_or_message {k host : Kind} (hinside : .message ∈ k.hosts)
    (hhost : host ∈ k.hosts) : host = .file ∨ host = .message := by
  cases k <;> simp_all [hosts]

namespace Graph

variable {g : Graph} {h₁ h₂ : Handle} {e₁ e₂ : Entity}

/-- The full name of what can be in a message goes on from its package along its path. -/
theorem WellNamed.fullName_eq (hnamed : g.WellNamed) (hg : g.WellFormed) {h : Handle} {e : Entity}
    (he : g.get? h = some e) (hinside : .message ∈ e.kind.hosts) :
    ∃ package q, e.package = some package ∧ g.get? package = some q ∧
      e.fullName = q.fullName ++ "." ++ ".".intercalate (g.typePath h e) := by
  have hfile : e.kind ≠ .file := by
    intro hkind
    simp [hkind, Kind.hosts] at hinside
  have hroot : e.kind ≠ .package := by
    intro hkind
    simp [hkind, Kind.hosts] at hinside
  obtain ⟨p, s, hp, hs, hhost, hshared, hcases⟩ := hnamed.fullName_cases hg he hfile hroot
  -- the path begins below a file, and below a message it goes on from the message's
  rcases hcases with ⟨hsfile, package, q, hsome, hget, hfull⟩ | ⟨hsfile, hfull⟩
  · refine ⟨package, q, hsome, hget, ?_⟩
    rw [hg.typePath_of_file he hp hs hsfile, hfull]
    simp
  · have hkind : s.kind = .message := (Kind.eq_file_or_message hinside hhost).resolve_left hsfile
    obtain ⟨package, q, hsome, hget, hname⟩ :=
      hnamed.fullName_eq hg hs (by simp [hkind, Kind.hosts])
    refine ⟨package, q, hshared.symm.trans hsome, hget, ?_⟩
    rw [typePath_of_message he hp hs hkind, hfull, hname,
      String.intercalate_append_of_ne_nil typePath_ne_nil (by simp)]
    simp [String.append_assoc]
termination_by h.index
decreasing_by exact parent_lt_of_get? he hp

theorem WellNamed.typePath_ne (hnamed : g.WellNamed) (hg : g.WellFormed) (hindex : g.Indexed)
    (he₁ : g.get? h₁ = some e₁) (he₂ : g.get? h₂ = some e₂)
    (hinside₁ : .message ∈ e₁.kind.hosts) (hinside₂ : .message ∈ e₂.kind.hosts)
    (hpackage : e₁.package = e₂.package) (hne : h₁ ≠ h₂) :
    g.typePath h₁ e₁ ≠ g.typePath h₂ e₂ := by
  intro hpath
  apply hne
  apply hindex.eq_of_fullName_eq he₁ he₂
  obtain ⟨p₁, q₁, hp₁, hq₁, hfull₁⟩ := hnamed.fullName_eq hg he₁ hinside₁
  obtain ⟨p₂, q₂, hp₂, hq₂, hfull₂⟩ := hnamed.fullName_eq hg he₂ hinside₂
  obtain rfl : p₁ = p₂ := Option.some.inj (by rw [← hp₁, hpackage, hp₂])
  obtain rfl : q₁ = q₂ := Option.some.inj (hq₁.symm.trans hq₂)
  rw [hfull₁, hfull₂, hpath]

end Graph

end Schema

/-! ## Words -/

def words (parts : List String) : List (List Char) :=
  parts.flatMap fun part => part.toList.splitOn '_'

theorem splitOn_intercalate_eq_words {parts : List String} (hne : parts ≠ []) :
    ("_".intercalate parts).toList.splitOn '_' = words parts := by
  induction parts with
  | nil => exact absurd rfl hne
  | cons part parts ih =>
      cases parts with
      | nil => simp [words]
      | cons next parts =>
          have hsplit := ih (List.cons_ne_nil next parts)
          have hjoin : ("_".intercalate (part :: next :: parts)).toList =
              part.toList ++ '_' :: ("_".intercalate (next :: parts)).toList := by
            simp
          rw [hjoin, List.splitOn, List.splitOnP_append_cons _ _ (by rfl)]
          rw [List.splitOn] at hsplit
          rw [hsplit]
          rfl

theorem intercalate_eq_iff_words_eq {parts parts' : List String} (hne : parts ≠ [])
    (hne' : parts' ≠ []) :
    "_".intercalate parts = "_".intercalate parts' ↔ words parts = words parts' := by
  rw [← splitOn_intercalate_eq_words hne, ← splitOn_intercalate_eq_words hne']
  constructor
  · intro heq
    rw [heq]
  · intro hsplit
    have hjoined := congrArg (List.intercalate ['_']) hsplit
    rw [List.intercalate_splitOn, List.intercalate_splitOn] at hjoined
    exact String.toList_inj.1 hjoined

theorem words_eq_of_underscore_notMem {parts : List String}
    (hparts : ∀ part ∈ parts, '_' ∉ part.toList) : words parts = parts.map String.toList := by
  induction parts with
  | nil => rfl
  | cons part parts ih =>
      rw [List.forall_mem_cons] at hparts
      have hrest := ih hparts.2
      rw [words] at hrest ⊢
      rw [List.flatMap_cons, hrest, List.splitOn_eq_singleton hparts.1]
      rfl

/-! ## Identifiers of types -/

namespace Resolver

variable {r : Resolver} {h : Handle} {e : Entity} {n : Identifier}

/-- `n` is the identifier of the type that is generated for an entity: the name of a message or
enum, the option of a oneof member. -/
inductive TypeIdentifier (r : Resolver) (h : Handle) (e : Entity) (n : Identifier) : Prop where
  | type (hkind : e.kind.IsType) (hname : r.name h = .ok n)
  | option (group : Handle) (hkind : e.kind = .field (some group)) (hname : r.oneofOption h = .ok n)

def ownPart (r : Resolver) (e : Entity) : Identifier :=
  match e.kind with
  | .field _ => r.fieldName e
  | _ => r.convention.typePart e.name

/-- The parts that the identifier of a type is joined from, one for each name of its path. -/
def typeParts (r : Resolver) (h : Handle) (e : Entity) : List String :=
  (r.graph.enclosingMessages h).map (fun s => (r.convention.typePart s.name).text) ++
    [(r.ownPart e).text]

theorem typeParts_ne_nil : r.typeParts h e ≠ [] := by
  simp [typeParts]

theorem length_typeParts : (r.typeParts h e).length = (r.graph.typePath h e).length := by
  simp [typeParts, Graph.typePath]

theorem TypeIdentifier.message_mem_hosts (hn : r.TypeIdentifier h e n) :
    .message ∈ e.kind.hosts := by
  cases hn with
  | type hkind =>
      rcases hkind with hkind | hkind <;> rw [hkind] <;> simp [Kind.hosts]
  | option group hkind => simp [hkind, Kind.hosts]

theorem TypeIdentifier.text_eq (hn : r.TypeIdentifier h e n) (hg : r.graph.WellFormed)
    (he : r.graph.get? h = some e) : n.text = "_".intercalate (r.typeParts h e) := by
  cases hn with
  | type hkind hname =>
      rw [name_of_type_eq_typeText hg he hkind] at hname
      cases hname
      have hown : r.ownPart e = r.convention.typePart e.name := by
        rcases hkind with hkind | hkind <;> rw [ownPart, hkind]
      rw [Convention.typeText, Graph.typePath, typeParts, hown, List.map_map, List.map_append]
      rfl
  | option group hkind hname =>
      obtain ⟨p, s, hp, hs, hmessage, hoption⟩ := oneofOption_of_member hg he hkind
      rw [hoption] at hname
      cases hname
      have hown : r.ownPart e = r.fieldName e := by
        rw [ownPart, hkind]
      have houter : r.typeParts h e =
          ((r.graph.typePath p s).map fun name => (r.convention.typePart name).text) ++
            [(r.fieldName e).text] := by
        rw [typeParts, hown, Graph.enclosingMessages_of_message he hp hs hmessage, Graph.typePath]
        simp
      rw [houter, String.intercalate_append_of_ne_nil (by simp [Graph.typePath]) (by simp)]
      rfl

end Resolver

/-! ## Collisions -/

theorem exists_getElem?_ne {xs ys : List String} (hlength : xs.length = ys.length)
    (hne : xs ≠ ys) : ∃ (i : Nat) (x y : String), xs[i]? = some x ∧ ys[i]? = some y ∧ x ≠ y := by
  by_contra hnone
  apply hne
  apply List.ext_getElem hlength
  intro i hxs hys
  by_contra hdiffer
  exact hnone ⟨i, xs[i], ys[i], List.getElem?_eq_getElem hxs, List.getElem?_eq_getElem hys, hdiffer⟩

/-- Different paths with the same parts have different names with the same part at some place. -/
theorem Resolver.exists_same_part {r : Resolver} {h₁ h₂ : Handle} {e₁ e₂ : Entity}
    (hparts : r.typeParts h₁ e₁ = r.typeParts h₂ e₂)
    (hpath : r.graph.typePath h₁ e₁ ≠ r.graph.typePath h₂ e₂) :
    ∃ (i : Nat) (name₁ name₂ part : String),
      (r.graph.typePath h₁ e₁)[i]? = some name₁ ∧ (r.graph.typePath h₂ e₂)[i]? = some name₂ ∧
      name₁ ≠ name₂ ∧
      (r.typeParts h₁ e₁)[i]? = some part ∧ (r.typeParts h₂ e₂)[i]? = some part := by
  have hlength : (r.graph.typePath h₁ e₁).length = (r.graph.typePath h₂ e₂).length := by
    rw [← length_typeParts, ← length_typeParts, hparts]
  obtain ⟨i, name₁, name₂, hname₁, hname₂, hdiffer⟩ := exists_getElem?_ne hlength hpath
  have hi : i < (r.typeParts h₂ e₂).length := by
    rw [length_typeParts]
    exact (List.getElem?_eq_some_iff.1 hname₂).1
  have hpart : (r.typeParts h₂ e₂)[i]? = some (r.typeParts h₂ e₂)[i] :=
    List.getElem?_eq_getElem hi
  exact ⟨i, name₁, name₂, _, hname₁, hname₂, hdiffer, by rw [hparts, hpart], hpart⟩

/-- Two types of a package never have the same path, but their identifiers are distinct exactly if
the words of their parts are.  Parts without underscores only collide if two names at the same
place of the paths are converted to the same part. -/
theorem typeIdentifier_ne_iff (number : Nat) (ds : List Declaration) (convention : Convention)
    {h₁ h₂ : Handle} {e₁ e₂ : Entity} {n₁ n₂ : Identifier} :
    let r : Resolver := ⟨((Builder.start number).run ds).build, convention⟩
    r.graph.get? h₁ = some e₁ → r.graph.get? h₂ = some e₂ → e₁.package = e₂.package → h₁ ≠ h₂ →
    r.TypeIdentifier h₁ e₁ n₁ → r.TypeIdentifier h₂ e₂ n₂ →
      r.graph.typePath h₁ e₁ ≠ r.graph.typePath h₂ e₂ ∧
      (n₁ ≠ n₂ ↔ words (r.typeParts h₁ e₁) ≠ words (r.typeParts h₂ e₂)) ∧
      ((∀ part ∈ r.typeParts h₁ e₁ ++ r.typeParts h₂ e₂, '_' ∉ part.toList) → n₁ = n₂ →
        ∃ (i : Nat) (name₁ name₂ part : String),
          (r.graph.typePath h₁ e₁)[i]? = some name₁ ∧ (r.graph.typePath h₂ e₂)[i]? = some name₂ ∧
          name₁ ≠ name₂ ∧
          (r.typeParts h₁ e₁)[i]? = some part ∧ (r.typeParts h₂ e₂)[i]? = some part) := by
  intro r he₁ he₂ hpackage hne hn₁ hn₂
  have hvalid := Builder.valid_run_start number ds
  have hg : r.graph.WellFormed := hvalid.wellFormed
  have hnamed : r.graph.WellNamed := Builder.wellNamed_run_start number ds
  have hpath : r.graph.typePath h₁ e₁ ≠ r.graph.typePath h₂ e₂ :=
    hnamed.typePath_ne hg hvalid.indexed he₁ he₂ hn₁.message_mem_hosts hn₂.message_mem_hosts
      hpackage hne
  have htext : n₁ = n₂ ↔ words (r.typeParts h₁ e₁) = words (r.typeParts h₂ e₂) := by
    rw [← intercalate_eq_iff_words_eq Resolver.typeParts_ne_nil Resolver.typeParts_ne_nil,
      ← hn₁.text_eq hg he₁, ← hn₂.text_eq hg he₂, Identifier.mk.injEq]
  refine ⟨hpath, not_congr htext, fun hunder heq => ?_⟩
  rw [List.forall_mem_append] at hunder
  have hparts : r.typeParts h₁ e₁ = r.typeParts h₂ e₂ := by
    have hwords := htext.1 heq
    rw [words_eq_of_underscore_notMem hunder.1, words_eq_of_underscore_notMem hunder.2] at hwords
    exact (List.map_inj_right fun _ _ => String.toList_inj.1).1 hwords
  exact Resolver.exists_same_part hparts hpath

/-- A nested message, and a message at the top whose own name has an underscore left. -/
def joinedDeclarations : List Declaration :=
  [.package "p", .file ⟨1, 0⟩ "f", .member .message ⟨1, 1⟩ "foo", .member .message ⟨1, 2⟩ "bar",
    .member .message ⟨1, 1⟩ "foo__bar"]

theorem typeIdentifier_ne_joined :
    let r : Resolver := ⟨((Builder.start 1).run joinedDeclarations).build, .go⟩
    ∃ e₁ e₂, r.graph.get? ⟨1, 3⟩ = some e₁ ∧ r.graph.get? ⟨1, 4⟩ = some e₂ ∧
      r.typeParts ⟨1, 3⟩ e₁ = ["Foo", "Bar"] ∧ r.typeParts ⟨1, 4⟩ e₂ = ["Foo_Bar"] ∧
      words ["Foo", "Bar"] = words ["Foo_Bar"] := by
  intro r
  have he₁ : r.graph.get? ⟨1, 3⟩ =
      some ⟨.message, "bar", ".p.foo.bar", some ⟨1, 2⟩, some ⟨1, 0⟩, []⟩ := by
    decide +kernel
  have he₂ : r.graph.get? ⟨1, 4⟩ =
      some ⟨.message, "foo__bar", ".p.foo__bar", some ⟨1, 1⟩, some ⟨1, 0⟩, []⟩ := by
    decide +kernel
  have hparts₁ : r.typeParts ⟨1, 3⟩ ⟨.message, "bar", ".p.foo.bar", some ⟨1, 2⟩, some ⟨1, 0⟩, []⟩ =
      ["Foo", "Bar"] := by
    decide +kernel
  have hparts₂ : r.typeParts ⟨1, 4⟩
      ⟨.message, "foo__bar", ".p.foo__bar", some ⟨1, 1⟩, some ⟨1, 0⟩, []⟩ = ["Foo_Bar"] := by
    decide +kernel
  have hn₁ : r.name ⟨1, 3⟩ = .ok ⟨"Foo_Bar"⟩ := by
    decide +kernel
  have hn₂ : r.name ⟨1, 4⟩ = .ok ⟨"Foo_Bar"⟩ := by
    decide +kernel
  refine ⟨_, _, he₁, he₂, hparts₁, hparts₂, ?_⟩
  obtain ⟨-, hwords, -⟩ := typeIdentifier_ne_iff 1 joinedDeclarations .go he₁ he₂ rfl (by decide)
    (.type (.inl rfl) hn₁) (.type (.inl rfl) hn₂)
  rw [hparts₁, hparts₂] at hwords
  by_contra hne
  exact hwords.2 hne rfl

def convertedDeclarations : List Declaration :=
  [.package "p", .file ⟨1, 0⟩ "f", .member .message ⟨1, 1⟩ "foo_bar",
    .member .message ⟨1, 1⟩ "FooBar"]

/-- The names of two messages of a package can be the same, and a name table is made all the
same. -/
theorem colliding_messages :
    Config.load "protoname.toml" "" = .ok {} ∧
      let r : Resolver := ⟨((Builder.start 1).run convertedDeclarations).build,
        Config.convention {}⟩
      (∃ t, NameTable.resolve r = .ok t) ∧
      (∃ e₁ e₂, r.graph.get? ⟨1, 2⟩ = some e₁ ∧ r.graph.get? ⟨1, 3⟩ = some e₂ ∧
        e₁.kind = .message ∧ e₂.kind = .message ∧ e₁.package = e₂.package) ∧
      r.name ⟨1, 2⟩ = .ok ⟨"FooBar"⟩ ∧ r.name ⟨1, 3⟩ = .ok ⟨"FooBar"⟩ := by
  have he₁ : ((Builder.start 1).run convertedDeclarations).build.get? ⟨1, 2⟩ =
      some ⟨.message, "foo_bar", ".p.foo_bar", some ⟨1, 1⟩, some ⟨1, 0⟩, []⟩ := by
    decide +kernel
  have he₂ : ((Builder.start 1).run convertedDeclarations).build.get? ⟨1, 3⟩ =
      some ⟨.message, "FooBar", ".p.FooBar", some ⟨1, 1⟩, some ⟨1, 0⟩, []⟩ := by
    decide +kernel
  refine ⟨by decide +kernel, ?_, ⟨_, _, he₁, he₂, rfl, rfl, rfl⟩, ?_, ?_⟩
  · have hresolved : (NameTable.resolve ⟨((Builder.start 1).run convertedDeclarations).build,
        Config.convention {}⟩).toBool = true := by
      decide +kernel
    cases htable : NameTable.resolve ⟨((Builder.start 1).run convertedDeclarations).build,
        Config.convention {}⟩ with
    | ok t => exact ⟨t, rfl⟩
    | error e =>
        rw [htable] at hresolved
        cases hresolved
  · decide +kernel
  · decide +kernel

end StubNames
