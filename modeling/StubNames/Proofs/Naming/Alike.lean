import Mathlib.Data.List.Forall2
import StubNames.Proofs.Naming.Canonical
/-!
# What a name depends on

Entities of two graphs whose lineages read alike, kind by kind and name by name, have the same
names under a convention.  Nothing else has a say: neither the handles, nor what stands beside or
inside an entity, nor the order of declaration.  Paths of files do not count, and packages only for
the entities that are named after them.
-/

namespace StubNames

open Schema (Builder Declaration Entity Graph Handle Kind)

namespace Schema

def Kind.ungrouped : Kind → Kind
  | .field _ => .field none
  | k => k

theorem Kind.eq_or_field_of_ungrouped_eq {k k' : Kind} (h : k.ungrouped = k'.ungrouped) :
    k = k' ∨ (∃ oneof, k = .field oneof) ∧ ∃ oneof, k' = .field oneof := by
  cases k <;> cases k' <;> simp_all [ungrouped]

/-- Two entities that read the same in their schemas.  The path of a file does not count. -/
structure Entity.Alike (e e' : Entity) : Prop where
  kind : e.kind.ungrouped = e'.kind.ungrouped
  name : e.kind ≠ .file → e.name = e'.name

namespace Entity.Alike

instance (e e' : Entity) : Decidable (e.Alike e') :=
  decidable_of_iff (e.kind.ungrouped = e'.kind.ungrouped ∧ (e.kind ≠ .file → e.name = e'.name))
    ⟨fun h => ⟨h.1, h.2⟩, fun h => ⟨h.kind, h.name⟩⟩

variable {e e' : Entity}

theorem kind_eq_iff (h : e.Alike e') {k : Kind} (hk : ∀ oneof, k ≠ .field oneof) :
    e.kind = k ↔ e'.kind = k := by
  rcases Kind.eq_or_field_of_ungrouped_eq h.kind with heq | ⟨⟨o, ho⟩, o', ho'⟩
  · rw [heq]
  · rw [ho, ho']
    exact ⟨fun hkind => absurd hkind.symm (hk o), fun hkind => absurd hkind.symm (hk o')⟩

theorem name_eq_of_kind (h : e.Alike e') {k : Kind} (hkind : e.kind = k) (hk : k ≠ .file) :
    e.name = e'.name :=
  h.name (hkind ▸ hk)

theorem map_name_filter_message {l l' : List Entity} (h : List.Forall₂ Alike l l') :
    (l.filter fun e => e.kind == .message).map Entity.name =
      (l'.filter fun e => e.kind == .message).map Entity.name := by
  induction h with
  | nil => rfl
  | @cons e e' l l' he _ ih =>
      have hiff : e.kind = .message ↔ e'.kind = .message := he.kind_eq_iff (by simp)
      by_cases hkind : e.kind = .message
      · have hname : e.name = e'.name := he.name_eq_of_kind hkind (by simp)
        simp [hkind, hiff.1 hkind, hname, ih]
      · simp [hkind, mt hiff.2 hkind, ih]

end Entity.Alike

namespace Graph

variable {g g' : Graph} {h h' p p' : Handle} {e e' : Entity}

theorem typePath_eq_map_lineage (he : g.get? h = some e) :
    g.typePath h e =
      ((g.lineage h).tail.reverse.filter fun s => s.kind == .message).map Entity.name ++
        [e.name] := by
  rw [typePath, enclosingMessages, lineage_eq_cons he, List.tail_cons, List.filterMap_reverse,
    List.map_append]
  rfl

def Alike (g g' : Graph) (h h' : Handle) : Prop :=
  List.Forall₂ Entity.Alike (g.lineage h) (g'.lineage h')

instance (g g' : Graph) (h h' : Handle) : Decidable (g.Alike g' h h') :=
  decidable_of_iff ((g.lineage h).length = (g'.lineage h').length ∧
      ∀ p ∈ (g.lineage h).zip (g'.lineage h'), p.1.Alike p.2) (by
    rw [Alike, List.forall₂_iff_zip]
    simp only [Prod.forall])

theorem Alike.head (halike : g.Alike g' h h') (he : g.get? h = some e)
    (he' : g'.get? h' = some e') : e.Alike e' := by
  rw [Alike, lineage_eq_cons he, lineage_eq_cons he'] at halike
  exact (List.forall₂_cons.1 halike).1

theorem Alike.parents (halike : g.Alike g' h h') (he : g.get? h = some e)
    (he' : g'.get? h' = some e') (hp : e.parent = some p) (hp' : e'.parent = some p') :
    g.Alike g' p p' := by
  rw [Alike, lineage_of_parent he hp, lineage_of_parent he' hp'] at halike
  exact (List.forall₂_cons.1 halike).2

theorem Alike.typePath_eq (halike : g.Alike g' h h') (he : g.get? h = some e)
    (he' : g'.get? h' = some e') (hfile : e.kind ≠ .file) :
    g.typePath h e = g'.typePath h' e' := by
  have hown : e.name = e'.name := (halike.head he he').name hfile
  rw [typePath_eq_map_lineage he, typePath_eq_map_lineage he', hown]
  rw [Alike, lineage_eq_cons he, lineage_eq_cons he'] at halike
  have haround := List.forall₂_reverse_iff.2 (List.forall₂_cons.1 halike).2
  rw [lineage_eq_cons he, lineage_eq_cons he', List.tail_cons, List.tail_cons,
    Entity.Alike.map_name_filter_message haround]

def packageName? (g : Graph) (e : Entity) : Option String :=
  (e.package.bind g.get?).map Entity.name

end Graph

end Schema

namespace Resolver

/-- Two entities, each under its own resolver, of one convention and with lineages that read the
same. -/
structure Twins (r r' : Resolver) (h h' : Handle) (e e' : Entity) : Prop where
  wellFormed : r.graph.WellFormed
  wellFormed' : r'.graph.WellFormed
  convention : r.convention = r'.convention
  here : r.graph.get? h = some e
  here' : r'.graph.get? h' = some e'
  alike : r.graph.Alike r'.graph h h'

namespace Twins

variable {r r' : Resolver} {h h' : Handle} {e e' : Entity}

theorem head (t : Twins r r' h h' e e') : e.Alike e' :=
  t.alike.head t.here t.here'

theorem kind_eq (t : Twins r r' h h' e e') {k : Kind} (hkind : e.kind = k)
    (hk : ∀ oneof, k ≠ .field oneof) : e'.kind = k :=
  (t.head.kind_eq_iff hk).1 hkind

theorem declaredName_eq (t : Twins r r' h h' e e') {k : Kind} (hkind : e.kind = k)
    (hk : k ≠ .file) : e.name = e'.name :=
  t.head.name (hkind ▸ hk)

theorem typeText_eq (t : Twins r r' h h' e e') {k : Kind} (hkind : e.kind = k) (hk : k ≠ .file) :
    r.convention.typeText (r.graph.typePath h e) =
      r'.convention.typeText (r'.graph.typePath h' e') := by
  rw [t.convention, t.alike.typePath_eq t.here t.here' (hkind ▸ hk)]

theorem fieldName_eq (t : Twins r r' h h' e e') {k : Kind} (hkind : e.kind = k) (hk : k ≠ .file) :
    r.fieldName e = r'.fieldName e' := by
  rw [fieldName, fieldName, t.convention, t.declaredName_eq hkind hk]

/-- What encloses the two entities reads the same as well. -/
theorem parents (t : Twins r r' h h' e e') {p p' : Handle} {s s' : Entity}
    (hp : e.parent = some p) (hp' : e'.parent = some p') (hs : r.graph.get? p = some s)
    (hs' : r'.graph.get? p' = some s') : Twins r r' p p' s s' where
  wellFormed := t.wellFormed
  wellFormed' := t.wellFormed'
  convention := t.convention
  here := hs
  here' := hs'
  alike := t.alike.parents t.here t.here' hp hp'

/-! ## One kind at a time -/

theorem name_eq_of_file (t : Twins r r' h h' e e') (hkind : e.kind = .file)
    (hpackage : r.graph.packageName? e = r'.graph.packageName? e') : r.name h = r'.name h' := by
  have hkind' : e'.kind = .file := t.kind_eq hkind (by simp)
  obtain ⟨p, q, hp, hq, hname⟩ := name_of_file t.wellFormed t.here hkind
  obtain ⟨p', q', hp', hq', hname'⟩ := name_of_file t.wellFormed' t.here' hkind'
  rw [Graph.packageName?, Graph.packageName?, hp, hp', Option.bind_some, Option.bind_some, hq, hq',
    Option.map_some, Option.map_some, Option.some.injEq] at hpackage
  rw [hname, hname', hpackage]

theorem name_eq_of_isType (t : Twins r r' h h' e e') (hkind : e.kind.IsType) :
    r.name h = r'.name h' := by
  have hkind' : e'.kind.IsType :=
    hkind.imp (fun hkind => t.kind_eq hkind (by simp)) fun hkind => t.kind_eq hkind (by simp)
  have htext : r.convention.typeText (r.graph.typePath h e) =
      r'.convention.typeText (r'.graph.typePath h' e') :=
    hkind.elim (fun hkind => t.typeText_eq hkind (by simp)) fun hkind =>
      t.typeText_eq hkind (by simp)
  rw [name_of_type_eq_typeText t.wellFormed t.here hkind,
    name_of_type_eq_typeText t.wellFormed' t.here' hkind', htext]

theorem name_eq_of_enumValue (t : Twins r r' h h' e e') (hkind : e.kind = .enumValue) :
    r.name h = r'.name h' := by
  have hkind' : e'.kind = .enumValue := t.kind_eq hkind (by simp)
  obtain ⟨p, s, hp, hs, henum, hname⟩ := name_of_enumValue_eq_map t.wellFormed t.here hkind
  obtain ⟨p', s', hp', hs', -, hname'⟩ := name_of_enumValue_eq_map t.wellFormed' t.here' hkind'
  have houter := (t.parents hp hp' hs hs').typeText_eq henum (by simp)
  rw [hname, hname', houter, t.declaredName_eq hkind (by simp)]

theorem name_eq_of_isField (t : Twins r r' h h' e e') (hkind : e.kind.IsField) :
    r.name h = r'.name h' := by
  have hfield : r.fieldName e = r'.fieldName e' := by
    rcases hkind with hkind | ⟨oneof, hkind⟩
    · exact t.fieldName_eq hkind (by simp)
    · exact t.fieldName_eq hkind (by simp)
  have hkind' : e'.kind.IsField := by
    rcases Kind.eq_or_field_of_ungrouped_eq t.head.kind with heq | ⟨-, hfield'⟩
    · exact heq ▸ hkind
    · exact .inr hfield'
  rw [name_of_isField t.here hkind, name_of_isField t.here' hkind', hfield]

theorem name_eq (t : Twins r r' h h' e e')
    (hpackage : e.kind = .file → r.graph.packageName? e = r'.graph.packageName? e') :
    r.name h = r'.name h' := by
  cases hkind : e.kind with
  | file => exact t.name_eq_of_file hkind (hpackage hkind)
  | package =>
      have hkind' : e'.kind = .package := t.kind_eq hkind (by simp)
      rw [name_of_package t.here hkind, name_of_package t.here' hkind',
        t.declaredName_eq hkind (by simp)]
  | message => exact t.name_eq_of_isType (.inl hkind)
  | enumeration => exact t.name_eq_of_isType (.inr hkind)
  | enumValue => exact t.name_eq_of_enumValue hkind
  | field oneof => exact t.name_eq_of_isField (.inr ⟨oneof, hkind⟩)
  | oneofGroup => exact t.name_eq_of_isField (.inl hkind)
  | service =>
      have hkind' : e'.kind = .service := t.kind_eq hkind (by simp)
      rw [name_of_service t.here hkind, name_of_service t.here' hkind', t.convention,
        t.declaredName_eq hkind (by simp)]
  | method =>
      have hkind' : e'.kind = .method := t.kind_eq hkind (by simp)
      rw [name_of_method t.here hkind, name_of_method t.here' hkind',
        t.declaredName_eq hkind (by simp)]

/-! ## Names on request -/

theorem serviceName_eq (t : Twins r r' h h' e e') (hkind : e.kind = .service)
    (request : NameRequest) (suffix : Suffix) :
    r.serviceName request suffix h = r'.serviceName request suffix h' := by
  have hkind' : e'.kind = .service := t.kind_eq hkind (by simp)
  rw [serviceName_of_service t.here hkind, serviceName_of_service t.here' hkind',
    t.declaredName_eq hkind (by simp)]

theorem oneofOption_eq (t : Twins r r' h h' e e') {group group' : Handle}
    (hkind : e.kind = .field (some group)) (hkind' : e'.kind = .field (some group')) :
    r.oneofOption h = r'.oneofOption h' := by
  obtain ⟨p, s, hp, hs, hmessage, hname⟩ := oneofOption_of_member t.wellFormed t.here hkind
  obtain ⟨p', s', hp', hs', -, hname'⟩ := oneofOption_of_member t.wellFormed' t.here' hkind'
  have houter := (t.parents hp hp' hs hs').typeText_eq hmessage (by simp)
  rw [hname, hname', houter, t.fieldName_eq hkind (by simp)]

end Twins

end Resolver

/-- Entities of two graphs, each built by declarations of its own, have the same names under a
convention if their lineages read the same, and for files also the names of their packages. -/
theorem name_eq_of_alike (number number' : Nat) (ds ds' : List Declaration)
    (convention : Convention) {h h' : Handle} {e e' : Entity} :
    let r : Resolver := ⟨((Builder.start number).run ds).build, convention⟩
    let r' : Resolver := ⟨((Builder.start number').run ds').build, convention⟩
    r.graph.get? h = some e → r'.graph.get? h' = some e' → r.graph.Alike r'.graph h h' →
    (e.kind = .file → r.graph.packageName? e = r'.graph.packageName? e') →
      r.name h = r'.name h' ∧
      (e.kind = .service →
        r.clientName h = r'.clientName h' ∧ r.serverName h = r'.serverName h') ∧
      (e.oneof ≠ none → e'.oneof ≠ none → r.oneofOption h = r'.oneofOption h') := by
  intro r r' he he' halike hpackage
  have t : r.Twins r' h h' e e' := {
    wellFormed := (Builder.valid_run_start number ds).wellFormed
    wellFormed' := (Builder.valid_run_start number' ds').wellFormed
    convention := rfl
    here := he
    here' := he'
    alike := halike }
  refine ⟨t.name_eq hpackage, fun hkind => ?_, fun hmember hmember' => ?_⟩
  · exact ⟨t.serviceName_eq hkind _ _, t.serviceName_eq hkind _ _⟩
  · obtain ⟨group, hkind⟩ := Schema.Entity.exists_kind_of_oneof_ne_none hmember
    obtain ⟨group', hkind'⟩ := Schema.Entity.exists_kind_of_oneof_ne_none hmember'
    exact t.oneofOption_eq hkind hkind'

def eventDeclarations : List Declaration :=
  [.package "chat", .file ⟨1, 0⟩ "chat.proto", .member .message ⟨1, 1⟩ "event",
    .member .oneof ⟨1, 2⟩ "body", .member .field ⟨1, 2⟩ "sent_at", .oneofField ⟨1, 3⟩ "string"]

def movedEventDeclarations : List Declaration :=
  [.package "log", .package "chat.v2", .file ⟨2, 1⟩ "v2.proto", .member .service ⟨2, 2⟩ "room",
    .member .message ⟨2, 2⟩ "event", .member .oneof ⟨2, 4⟩ "content", .oneofField ⟨2, 5⟩ "string"]

theorem name_eq_of_alike_event :
    let r' : Resolver := ⟨((Builder.start 2).run movedEventDeclarations).build, .go⟩
    r'.name ⟨2, 6⟩ = .ok ⟨"String_"⟩ ∧ r'.oneofOption ⟨2, 6⟩ = .ok ⟨"Event_String_"⟩ := by
  intro r'
  let r : Resolver := ⟨((Builder.start 1).run eventDeclarations).build, .go⟩
  have he : r.graph.get? ⟨1, 5⟩ = some ⟨.field (some ⟨1, 3⟩), "string", ".chat.event.string",
      some ⟨1, 2⟩, some ⟨1, 0⟩, []⟩ := by
    decide +kernel
  have he' : r'.graph.get? ⟨2, 6⟩ = some ⟨.field (some ⟨2, 5⟩), "string",
      ".chat.v2.event.string", some ⟨2, 4⟩, some ⟨2, 1⟩, []⟩ := by
    decide +kernel
  have halike : r.graph.Alike r'.graph ⟨1, 5⟩ ⟨2, 6⟩ := by
    decide +kernel
  obtain ⟨hname, -, hoption⟩ := name_eq_of_alike 1 2 eventDeclarations movedEventDeclarations .go
    he he' halike (by simp)
  have hoption := hoption (by decide) (by decide)
  rw [← hname, ← hoption]
  exact ⟨by decide +kernel, by decide +kernel⟩

end StubNames
