import Mathlib.Data.List.Perm.Basic
import StubNames.Proofs.Convention
import StubNames.Proofs.Identifier.Grammar
import StubNames.Proofs.Naming.Agreement
/-!
# What each part of a convention reaches

The names of types depend on a convention through its reserved types and its escape suffix only,
and those of fields through its reserved fields and that suffix.  A service has the suffix that it
is asked for, and all other names are the same under every convention.  Reserved names count as a
set: whoever listed them, and in which order, has no say.
-/

namespace StubNames

open Schema (Builder Declaration Entity Graph Handle Kind)

/-! ## Conventions that have a part in common -/

namespace Convention

variable {c d : Convention} {reserved : Convention → Ordered.Set String}

/-- Two conventions that reserve the same names, in whatever order, and escape them by the same
suffix. -/
structure EscapeAlike (reserved : Convention → Ordered.Set String) (c d : Convention) : Prop where
  mem_iff : ∀ name, name ∈ reserved c ↔ name ∈ reserved d
  escapeSuffix : c.escapeSuffix = d.escapeSuffix

theorem EscapeAlike.escapeIn_eq (h : EscapeAlike reserved c d) (a : Identifier) :
    c.escapeIn (reserved c) a = d.escapeIn (reserved d) a := by
  by_cases ha : a.text ∈ reserved c
  · have ha' : a.text ∈ reserved d := (h.mem_iff a.text).1 ha
    rw [escapeIn, escapeIn, if_pos ha, if_pos ha', escape, escape, h.escapeSuffix]
  · have ha' : a.text ∉ reserved d := mt (h.mem_iff a.text).2 ha
    rw [escapeIn, escapeIn, if_neg ha, if_neg ha']

theorem EscapeAlike.safeFieldName_eq (h : EscapeAlike reservedFields c d) (a : Identifier) :
    c.safeFieldName a = d.safeFieldName a := by
  rw [safeFieldName_eq_escapeIn, safeFieldName_eq_escapeIn]
  exact h.escapeIn_eq a

theorem EscapeAlike.safeTypeName_eq (h : EscapeAlike reservedTypes c d) (a : Identifier) :
    c.safeTypeName a = d.safeTypeName a := by
  rw [safeTypeName_eq_escapeIn, safeTypeName_eq_escapeIn]
  exact h.escapeIn_eq a

/-- What two conventions must have in common for entities of a kind to have the same names. -/
def AgreeFor (c d : Convention) : Kind → Prop
  | .file => True
  | .package => True
  | .message => EscapeAlike reservedTypes c d
  | .enumeration => EscapeAlike reservedTypes c d
  | .enumValue => EscapeAlike reservedTypes c d
  | .field _ => EscapeAlike reservedFields c d
  | .oneofGroup => EscapeAlike reservedFields c d
  | .service => c.serverSuffix = d.serverSuffix
  | .method => True

theorem agrees_iff :
    c.agrees d = true ↔ EscapeAlike reservedFields c d ∧ EscapeAlike reservedTypes c d ∧
      c.serverSuffix = d.serverSuffix ∧ c.clientSuffix = d.clientSuffix := by
  simp only [agrees, Bool.and_eq_true, beq_iff_eq, Ordered.Set.sameMembers_iff]
  constructor
  · rintro ⟨⟨⟨⟨hfields, htypes⟩, hserver⟩, hclient⟩, hescape⟩
    exact ⟨⟨hfields, hescape⟩, ⟨htypes, hescape⟩, hserver, hclient⟩
  · rintro ⟨hfields, htypes, hserver, hclient⟩
    exact ⟨⟨⟨⟨hfields.mem_iff, htypes.mem_iff⟩, hserver⟩, hclient⟩, hfields.escapeSuffix⟩

theorem agreeFor_of_agrees (h : c.agrees d = true) (k : Kind) : c.AgreeFor d k := by
  obtain ⟨hfields, htypes, hserver, -⟩ := agrees_iff.1 h
  cases k with
  | file => trivial
  | package => trivial
  | message => exact htypes
  | enumeration => exact htypes
  | enumValue => exact htypes
  | field oneof => exact hfields
  | oneofGroup => exact hfields
  | service => exact hserver
  | method => trivial

/-- Names may be reserved in any order. -/
theorem agrees_of_perm (c : Convention) {fields fields' types types' : List String}
    (hfields : fields.Perm fields') (htypes : types.Perm types') :
    agrees { c with reservedFields := .ofList fields, reservedTypes := .ofList types }
      { c with reservedFields := .ofList fields', reservedTypes := .ofList types' } = true := by
  have hsame {names names' : List String} (h : names.Perm names') (name : String) :
      name ∈ Ordered.Set.ofList names ↔ name ∈ Ordered.Set.ofList names' := by
    rw [Ordered.Set.mem_ofList, Ordered.Set.mem_ofList]
    exact h.mem_iff
  exact agrees_iff.2 ⟨⟨hsame hfields, rfl⟩, ⟨hsame htypes, rfl⟩, rfl, rfl⟩

end Convention

/-! ## One graph under two conventions -/

namespace Resolver

open Convention (EscapeAlike reservedFields reservedTypes)

variable {g : Graph} {c d : Convention} {h : Handle} {e : Entity}

/-- However deep a type is nested, each part of its name is escaped alike. -/
theorem typeName_eq_of_escapeAlike (htypes : EscapeAlike reservedTypes c d) (h : Handle) :
    typeName ⟨g, c⟩ h = typeName ⟨g, d⟩ h := by
  rw [typeName, typeName]
  simp only [htypes.safeTypeName_eq]
  split
  · rfl
  · next e he =>
      split
      · rfl
      · next p hp =>
          -- the message around was declared before, and its parts are escaped alike already
          have hlt : p.index < h.index := Graph.parent_lt_of_get? he hp
          rw [typeName_eq_of_escapeAlike htypes p]
termination_by h.index

theorem fieldName_eq_of_escapeAlike (hfields : EscapeAlike reservedFields c d) (e : Entity) :
    fieldName ⟨g, c⟩ e = fieldName ⟨g, d⟩ e :=
  hfields.safeFieldName_eq (upperCamel e.name)

theorem name_eq_of_agreeFor (he : g.get? h = some e) (hagree : c.AgreeFor d e.kind) :
    name ⟨g, c⟩ h = name ⟨g, d⟩ h := by
  rw [name, name, entity_of_get? (r := ⟨g, c⟩) he, entity_of_get? (r := ⟨g, d⟩) he, pure_bind,
    pure_bind]
  revert hagree
  cases e.kind with
  | file => exact fun _ => rfl
  | package => exact fun _ => rfl
  | message => exact fun htypes => typeName_eq_of_escapeAlike htypes h
  | enumeration => exact fun htypes => typeName_eq_of_escapeAlike htypes h
  | enumValue =>
      intro htypes
      simp only [typeName_eq_of_escapeAlike htypes]
  | field oneof =>
      intro hfields
      dsimp only
      rw [fieldName_eq_of_escapeAlike hfields]
  | oneofGroup =>
      intro hfields
      dsimp only
      rw [fieldName_eq_of_escapeAlike hfields]
  | service =>
      intro hsuffix
      dsimp only
      rw [show c.serverSuffix = d.serverSuffix from hsuffix]
  | method => exact fun _ => rfl

theorem oneofOption_eq_of_escapeAlike (he : g.get? h = some e)
    (hfields : EscapeAlike reservedFields c d) (htypes : EscapeAlike reservedTypes c d) :
    oneofOption ⟨g, c⟩ h = oneofOption ⟨g, d⟩ h := by
  rw [oneofOption, oneofOption, entity_of_get? (r := ⟨g, c⟩) he, entity_of_get? (r := ⟨g, d⟩) he,
    pure_bind, pure_bind]
  split
  · rfl
  · simp only [typeName_eq_of_escapeAlike htypes, fieldName_eq_of_escapeAlike hfields]
  · rfl

/-- Of a convention a stub name has the suffix only, and two suffixes never give the same name. -/
theorem serviceName_eq_serviceName_iff (he : g.get? h = some e) (hkind : e.kind = .service)
    (request : NameRequest) {x y : Suffix} :
    serviceName ⟨g, c⟩ request x h = serviceName ⟨g, d⟩ request y h ↔ x = y := by
  rw [serviceName_of_service (r := ⟨g, c⟩) he hkind, serviceName_of_service (r := ⟨g, d⟩) he hkind,
    Except.ok.injEq, Identifier.withSuffix_right_inj]

theorem clientName_eq_of_clientSuffix (hclient : c.clientSuffix = d.clientSuffix) (h : Handle) :
    clientName ⟨g, c⟩ h = clientName ⟨g, d⟩ h := by
  rw [clientName, clientName, hclient]
  rfl

theorem serverName_eq_of_serverSuffix (hserver : c.serverSuffix = d.serverSuffix) (h : Handle) :
    serverName ⟨g, c⟩ h = serverName ⟨g, d⟩ h := by
  rw [serverName, serverName, hserver]
  rfl

theorem concurs_of_conventions_agree (he : g.get? h = some e) (hagrees : c.agrees d = true) :
    Concurs ⟨g, c⟩ ⟨g, d⟩ h h := by
  obtain ⟨hfields, htypes, hserver, hclient⟩ := Convention.agrees_iff.1 hagrees
  exact {
    name := name_eq_of_agreeFor he (Convention.agreeFor_of_agrees hagrees e.kind)
    oneofOption := oneofOption_eq_of_escapeAlike he hfields htypes
    clientName := clientName_eq_of_clientSuffix hclient h
    serverName := serverName_eq_of_serverSuffix hserver h }

end Resolver

/-- Whatever was declared, two conventions give an entity the same name if they have the part in
common that governs its kind, and the same answers to requests if they have the parts in common that
govern these.  Services do get the suffixes, so there no less is enough.  The order in which names
were reserved never matters. -/
theorem conventions_confined (number : Nat) (ds : List Declaration) (c d : Convention)
    {h : Handle} {e : Entity} :
    let g : Graph := ((Builder.start number).run ds).build
    let r : Resolver := ⟨g, c⟩
    let r' : Resolver := ⟨g, d⟩
    g.get? h = some e →
      (c.AgreeFor d e.kind → r.name h = r'.name h) ∧
      (c.clientSuffix = d.clientSuffix → r.clientName h = r'.clientName h) ∧
      (c.serverSuffix = d.serverSuffix → r.serverName h = r'.serverName h) ∧
      (Convention.EscapeAlike Convention.reservedFields c d →
        Convention.EscapeAlike Convention.reservedTypes c d →
          r.oneofOption h = r'.oneofOption h) ∧
      (e.kind = .service →
        (r.name h = r'.name h → c.serverSuffix = d.serverSuffix) ∧
        (r.clientName h = r'.clientName h → c.clientSuffix = d.clientSuffix)) ∧
      ∀ fields fields' types types' : List String, fields.Perm fields' → types.Perm types' →
        let c₁ := { c with reservedFields := .ofList fields, reservedTypes := .ofList types }
        let c₂ := { c with reservedFields := .ofList fields', reservedTypes := .ofList types' }
        Resolver.Concurs ⟨g, c₁⟩ ⟨g, c₂⟩ h h := by
  intro g r r' he
  refine ⟨Resolver.name_eq_of_agreeFor he, ?_, ?_, Resolver.oneofOption_eq_of_escapeAlike he,
    fun hkind => ⟨fun hname => ?_, ?_⟩, fun fields fields' types types' hfields htypes => ?_⟩
  · intro hclient
    exact Resolver.clientName_eq_of_clientSuffix hclient h
  · intro hserver
    exact Resolver.serverName_eq_of_serverSuffix hserver h
  · apply (Resolver.serviceName_eq_serviceName_iff he hkind .serverName).1
    have hserver : r.serverName h = r'.serverName h := by
      rw [Resolver.serverName_eq_name (r := r) he hkind, hname,
        Resolver.serverName_eq_name (r := r') he hkind]
    exact hserver
  · exact (Resolver.serviceName_eq_serviceName_iff he hkind .clientName).1
  · exact Resolver.concurs_of_conventions_agree he (c.agrees_of_perm hfields htypes)

def roomReserving : Convention :=
  { Convention.go with reservedTypes := .ofList ["Room", "Event"] }

/-- Escapes the same types, but no fields, and has another suffix for servers. -/
def handlerReserving : Convention :=
  { Convention.go with
    reservedFields := .empty
    reservedTypes := .ofList ["Event", "Room"]
    serverSuffix := ⟨"Handler", List.all_eq_true.1 rfl⟩ }

theorem conventions_confined_room :
    let g : Graph := ((Builder.start 1).run roomDeclarations).build
    let r : Resolver := ⟨g, roomReserving⟩
    let r' : Resolver := ⟨g, handlerReserving⟩
    let reversed : Convention :=
      { roomReserving with
        reservedFields := .ofList Convention.goReservedFields.reverse
        reservedTypes := .ofList ["Event", "Room"] }
    r'.name ⟨1, 3⟩ = .ok ⟨"Room__Event_"⟩ ∧ r'.clientName ⟨1, 7⟩ = .ok ⟨"ChatRoomClient"⟩ ∧
      r.name ⟨1, 7⟩ ≠ r'.name ⟨1, 7⟩ ∧ r.name ⟨1, 5⟩ ≠ r'.name ⟨1, 5⟩ ∧
      Resolver.oneofOption ⟨g, reversed⟩ ⟨1, 5⟩ = .ok ⟨"Room__Event__Reset_"⟩ := by
  intro g r r' reversed
  have hevent : g.get? ⟨1, 3⟩ = some ⟨.message, "event", ".chat.room.event", some ⟨1, 2⟩,
      some ⟨1, 0⟩, [⟨1, 4⟩, ⟨1, 5⟩, ⟨1, 6⟩]⟩ := by
    decide +kernel
  have hreset : g.get? ⟨1, 5⟩ = some ⟨.field (some ⟨1, 4⟩), "reset", ".chat.room.event.reset",
      some ⟨1, 3⟩, some ⟨1, 0⟩, []⟩ := by
    decide +kernel
  have hroom : g.get? ⟨1, 7⟩ = some ⟨.service, "chat_room", ".chat.chat_room", some ⟨1, 1⟩,
      some ⟨1, 0⟩, []⟩ := by
    decide +kernel
  have htypes : Convention.EscapeAlike Convention.reservedTypes roomReserving handlerReserving :=
    ⟨Ordered.Set.sameMembers_iff.1 (by decide), by decide⟩
  obtain ⟨htype, -⟩ := conventions_confined 1 _ roomReserving handlerReserving hevent
  obtain ⟨-, hclient, -, -, hsuffixes, -⟩ :=
    conventions_confined 1 _ roomReserving handlerReserving hroom
  obtain ⟨-, -, -, -, -, hordered⟩ :=
    conventions_confined 1 _ roomReserving handlerReserving hreset
  refine ⟨?_, ?_, fun hname => ?_, by decide +kernel, ?_⟩
  · rw [← htype htypes]
    decide +kernel
  · rw [← hclient rfl]
    decide +kernel
  · exact absurd ((hsuffixes rfl).1 hname) (by decide)
  · rw [← (hordered _ _ _ _ (List.reverse_perm _).symm (.swap "Event" "Room" [])).oneofOption]
    decide +kernel

end StubNames
