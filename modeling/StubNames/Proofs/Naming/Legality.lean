import StubNames.Proofs.Casing.Alphabet
import StubNames.Proofs.Convention
import StubNames.Proofs.Except
import StubNames.Proofs.Identifier.Grammar
import StubNames.Proofs.Naming.TypePath
/-!
# Legality of names

Every name that is resolved is in the dotted grammar, and it is a plain identifier unless one of
the declared names that it is made of has a dot.  Conversion, escaping, joining and suffixing all
keep `Identifier.MadeOf`, which says both at once, so nothing is ever checked again.
-/

namespace StubNames

open Schema (Builder Declaration Entity Graph Handle Kind)

namespace Identifier

/-- A dotted identifier whose dots come from the given declared names. -/
structure MadeOf (n : Identifier) (names : List String) : Prop where
  dotted : IsDotted n.text
  dot_mem_iff : '.' ∈ n.text.toList ↔ ∃ s ∈ names, '.' ∈ s.toList

namespace MadeOf

variable {a b n : Identifier} {names names' : List String}

theorem isPlain_iff (h : n.MadeOf names) :
    isPlain n.text = true ↔ ∀ s ∈ names, '.' ∉ s.toList := by
  rw [Identifier.isPlain_iff, h.dot_mem_iff]
  simp [h.dotted]

theorem of_isPlain {s : String} (h : isPlain s = true) : MadeOf ⟨s⟩ [] where
  dotted := (Identifier.isPlain_iff.1 h).1
  dot_mem_iff := by simpa using (Identifier.isPlain_iff.1 h).2

theorem join (ha : a.MadeOf names) (hb : b.MadeOf names') :
    (a.join b).MadeOf (names ++ names') where
  dotted := ha.dotted.join hb.dotted
  dot_mem_iff := by
    rw [dot_mem_join_iff, ha.dot_mem_iff, hb.dot_mem_iff]
    simp [or_and_right, exists_or]

theorem withSuffix (ha : a.MadeOf names) (x : Suffix) : (a.withSuffix x).MadeOf names where
  dotted := ha.dotted.withSuffix x
  dot_mem_iff := dot_mem_withSuffix_iff.trans ha.dot_mem_iff

theorem upperCamel (name : String) : (upperCamel name).MadeOf [name] where
  dotted := by
    obtain ⟨c, cs, hcons, hupper⟩ := exists_upperCamel_eq_cons name
    refine ⟨c, cs, hcons, .inl (isAlpha_of_isUpper hupper), fun d hd => ?_⟩
    exact isWordChar_or_dot_of_mem_upperCamel (hcons ▸ List.mem_cons_of_mem c hd)
  dot_mem_iff := by
    rw [dot_mem_upperCamel_iff]
    simp

theorem escapeIn (ha : a.MadeOf names) (c : Convention) (reserved : Ordered.Set String) :
    (c.escapeIn reserved a).MadeOf names := by
  unfold Convention.escapeIn
  split
  · exact ha.withSuffix c.escapeSuffix
  · exact ha

theorem typeText (c : Convention) {path : List String} (hne : path ≠ []) :
    MadeOf ⟨c.typeText path⟩ path := by
  induction path using List.reverseRecOn with
  | nil => exact absurd rfl hne
  | append_singleton path name ih =>
      have hpart : (c.typePart name).MadeOf [name] := by
        rw [Convention.typePart, Convention.safeTypeName_eq_escapeIn]
        exact (upperCamel name).escapeIn c c.reservedTypes
      by_cases hnil : path = []
      · subst hnil
        rw [List.nil_append, c.typeText_singleton]
        exact hpart
      · rw [c.typeText_concat hnil]
        exact (ih hnil).join hpart

end MadeOf

end Identifier

theorem isPlain_of_verbatim {name : String} {n : Identifier} (h : verbatim name = .ok n) :
    Identifier.isPlain name = true ∧ n = ⟨name⟩ := by
  rw [verbatim, mapError_eq_ok_iff, Identifier.parse, Identifier.Grammar.read_eq_ok_iff] at h
  exact ⟨Option.isNone_iff_eq_none.2 h.1, h.2⟩

theorem madeOf_of_verbatim {name : String} {n : Identifier} (h : verbatim name = .ok n) :
    n.MadeOf [] := by
  obtain ⟨hplain, rfl⟩ := isPlain_of_verbatim h
  exact .of_isPlain hplain

def Schema.Graph.nameSources (g : Graph) (h : Handle) (e : Entity) : List String :=
  match e.kind with
  | .file => []
  | .package => []
  | .message => g.typePath h e
  | .enumeration => g.typePath h e
  | .enumValue => (e.parent.bind fun p => (g.get? p).map (g.typePath p)).getD []
  | .field _ => [e.name]
  | .oneofGroup => [e.name]
  | .service => [e.name]
  | .method => [e.name]

namespace Resolver

variable {r : Resolver} {h : Handle} {e : Entity} {n : Identifier}

theorem get?_of_entity (he : r.entity h = .ok e) : r.graph.get? h = some e := by
  unfold entity at he
  split at he
  · next e' he' =>
      cases he
      exact he'
  · cases he

theorem fieldName_madeOf (r : Resolver) (e : Entity) : (r.fieldName e).MadeOf [e.name] := by
  rw [fieldName, Convention.safeFieldName_eq_escapeIn]
  exact (Identifier.MadeOf.upperCamel e.name).escapeIn r.convention r.convention.reservedFields

theorem typeName_madeOf (hg : r.graph.WellFormed) (he : r.graph.get? h = some e)
    (hhosts : e.kind.hosts = [.file, .message]) (hname : r.typeName h = .ok n) :
    n.MadeOf (r.graph.typePath h e) := by
  rw [typeName_eq_typeText hg he hhosts] at hname
  cases hname
  exact .typeText r.convention Graph.typePath_ne_nil

theorem enumName_madeOf (hg : r.graph.WellFormed) (he : r.graph.get? h = some e)
    (hkind : e.kind = .enumValue) {p : Handle} (hp : e.parent = some p)
    (hname : r.typeName p = .ok n) :
    ∃ s, r.graph.get? p = some s ∧ n.MadeOf (r.graph.typePath p s) := by
  obtain ⟨s, hs, -, hmem, -⟩ := (hg h e he).parent p hp
  have henum : s.kind = .enumeration := by
    rw [hkind] at hmem
    exact List.mem_singleton.1 hmem
  exact ⟨s, hs, typeName_madeOf hg hs (by rw [henum]; rfl) hname⟩

theorem linked_eq_ok_iff {target : Option Handle} {p : Handle} :
    linked h target = .ok p ↔ target = some p := by
  cases target <;> simp [linked]

theorem name_madeOf (hg : r.graph.WellFormed) (he : r.graph.get? h = some e)
    (hname : r.name h = .ok n) : n.MadeOf (r.graph.nameSources h e) := by
  have hconverted := Identifier.MadeOf.upperCamel e.name
  revert hname
  rw [name, entity_of_get? he, pure_bind, Graph.nameSources]
  cases hkind : e.kind with
  | file =>
      intro hname
      obtain ⟨p, -, hname⟩ := bind_eq_ok_iff.1 hname
      obtain ⟨package, -, hname⟩ := bind_eq_ok_iff.1 hname
      exact madeOf_of_verbatim hname
  | package => exact madeOf_of_verbatim
  | message => exact typeName_madeOf hg he (by rw [hkind]; rfl)
  | enumeration => exact typeName_madeOf hg he (by rw [hkind]; rfl)
  | enumValue =>
      intro hname
      obtain ⟨value, hvalue, hname⟩ := bind_eq_ok_iff.1 hname
      obtain ⟨p, hlinked, hname⟩ := bind_eq_ok_iff.1 hname
      obtain ⟨outer, houter, hname⟩ := bind_eq_ok_iff.1 hname
      cases hname
      have hp := linked_eq_ok_iff.1 hlinked
      obtain ⟨s, hs, hmade⟩ := enumName_madeOf hg he hkind hp houter
      have hjoin := hmade.join (madeOf_of_verbatim hvalue)
      rw [hp, Option.bind_some, hs, Option.map_some, Option.getD_some]
      rwa [List.append_nil] at hjoin
  | field oneof =>
      intro hname
      cases hname
      exact r.fieldName_madeOf e
  | oneofGroup =>
      intro hname
      cases hname
      exact r.fieldName_madeOf e
  | service =>
      intro hname
      cases hname
      exact hconverted.withSuffix r.convention.serverSuffix
  | method =>
      intro hname
      cases hname
      exact hconverted

theorem oneofOption_madeOf (hg : r.graph.WellFormed) (he : r.graph.get? h = some e)
    (hname : r.oneofOption h = .ok n) : n.MadeOf (r.graph.typePath h e) := by
  have hmember : ∃ group, e.kind = .field (some group) := by
    rw [oneofOption, entity_of_get? he, pure_bind] at hname
    split at hname
    · cases hname
    · next group hkind => exact ⟨group, hkind⟩
    · cases hname
  obtain ⟨group, hkind⟩ := hmember
  obtain ⟨p, s, hp, hs, hmessage, hoption⟩ := oneofOption_of_member hg he hkind
  rw [hoption] at hname
  cases hname
  have htype := Identifier.MadeOf.typeText r.convention (r.graph.typePath_ne_nil (h := p) (e := s))
  rw [Graph.typePath_of_message he hp hs hmessage]
  exact htype.join (r.fieldName_madeOf e)

theorem serviceName_madeOf {request : NameRequest} {suffix : Suffix}
    (he : r.graph.get? h = some e) (hname : r.serviceName request suffix h = .ok n) :
    n.MadeOf [e.name] := by
  rw [serviceName, entity_of_get? he, pure_bind] at hname
  split at hname
  · cases hname
    exact (Identifier.MadeOf.upperCamel e.name).withSuffix suffix
  · cases hname

/-! ## Only own handles have names -/

theorem exists_entity_of_bind {α : Type} {next : Entity → Except NamingError α} {a : α}
    (hbind : (r.entity h >>= next) = .ok a) : ∃ e, r.graph.get? h = some e := by
  obtain ⟨e, he, -⟩ := bind_eq_ok_iff.1 hbind
  exact ⟨e, get?_of_entity he⟩

end Resolver

/-- Whatever was declared and under any convention, every name is in the dotted grammar, and it is a
plain identifier exactly if no declared name that it is made of has a dot. -/
theorem name_legal (number : Nat) (ds : List Declaration) (convention : Convention) (h : Handle)
    (n : Identifier) :
    let r : Resolver := ⟨((Builder.start number).run ds).build, convention⟩
    (r.name h = .ok n → ∃ e, r.graph.get? h = some e ∧ Identifier.IsDotted n.text ∧
      (Identifier.isPlain n.text = true ↔ ∀ s ∈ r.graph.nameSources h e, '.' ∉ s.toList)) ∧
    (r.oneofOption h = .ok n → ∃ e, r.graph.get? h = some e ∧ Identifier.IsDotted n.text ∧
      (Identifier.isPlain n.text = true ↔ ∀ s ∈ r.graph.typePath h e, '.' ∉ s.toList)) ∧
    (r.clientName h = .ok n ∨ r.serverName h = .ok n → ∃ e, r.graph.get? h = some e ∧
      Identifier.IsDotted n.text ∧
      (Identifier.isPlain n.text = true ↔ '.' ∉ e.name.toList)) := by
  intro r
  have hg : r.graph.WellFormed := (Builder.valid_run_start number ds).wellFormed
  refine ⟨fun hname => ?_, fun hname => ?_, fun hname => ?_⟩
  · obtain ⟨e, he⟩ := Resolver.exists_entity_of_bind hname
    have hmade := Resolver.name_madeOf hg he hname
    exact ⟨e, he, hmade.dotted, hmade.isPlain_iff⟩
  · obtain ⟨e, he⟩ := Resolver.exists_entity_of_bind hname
    have hmade := Resolver.oneofOption_madeOf hg he hname
    exact ⟨e, he, hmade.dotted, hmade.isPlain_iff⟩
  · obtain ⟨e, he⟩ : ∃ e, r.graph.get? h = some e :=
      hname.elim Resolver.exists_entity_of_bind Resolver.exists_entity_of_bind
    have hmade : n.MadeOf [e.name] :=
      hname.elim (Resolver.serviceName_madeOf he) (Resolver.serviceName_madeOf he)
    have hplain := hmade.isPlain_iff
    rw [List.forall_mem_singleton] at hplain
    exact ⟨e, he, hmade.dotted, hplain⟩

def dottedDeclarations : List Declaration :=
  [.package "demo", .file ⟨1, 0⟩ "demo.proto", .member .message ⟨1, 1⟩ "my.type",
    .member .oneof ⟨1, 2⟩ "choice", .oneofField ⟨1, 3⟩ "reset"]

/-- The member itself has a plain name, its option has the dot of the message. -/
theorem name_legal_dotted :
    let r : Resolver := ⟨((Builder.start 1).run dottedDeclarations).build, .go⟩
    (r.name ⟨1, 4⟩ = .ok ⟨"Reset_"⟩ ∧ Identifier.isPlain "Reset_" = true) ∧
      r.oneofOption ⟨1, 4⟩ = .ok ⟨"My.type_Reset_"⟩ ∧ Identifier.IsDotted "My.type_Reset_" ∧
      ¬Identifier.isPlain "My.type_Reset_" = true := by
  intro r
  have hreset : r.graph.get? ⟨1, 4⟩ = some ⟨.field (some ⟨1, 3⟩), "reset", ".demo.my.type.reset",
      some ⟨1, 2⟩, some ⟨1, 0⟩, []⟩ := by
    decide +kernel
  have hname : r.name ⟨1, 4⟩ = .ok ⟨"Reset_"⟩ := by
    decide +kernel
  have hoption : r.oneofOption ⟨1, 4⟩ = .ok ⟨"My.type_Reset_"⟩ := by
    decide +kernel
  obtain ⟨e, he, -, hplain⟩ := (name_legal 1 dottedDeclarations .go ⟨1, 4⟩ ⟨"Reset_"⟩).1 hname
  obtain ⟨e', he', hdotted, hplain'⟩ :=
    (name_legal 1 dottedDeclarations .go ⟨1, 4⟩ ⟨"My.type_Reset_"⟩).2.1 hoption
  obtain rfl := Option.some.inj (hreset.symm.trans he)
  obtain rfl := Option.some.inj (hreset.symm.trans he')
  have hsources : "my.type" ∈ r.graph.typePath ⟨1, 4⟩ ⟨.field (some ⟨1, 3⟩), "reset",
      ".demo.my.type.reset", some ⟨1, 2⟩, some ⟨1, 0⟩, []⟩ := by
    decide +kernel
  refine ⟨⟨hname, hplain.2 (by decide +kernel)⟩, hoption, hdotted, fun hcontra => ?_⟩
  exact hplain'.1 hcontra "my.type" hsources (by decide +kernel)

end StubNames
