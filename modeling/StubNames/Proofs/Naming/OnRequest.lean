import StubNames.Proofs.Naming.Canonical
import StubNames.Proofs.Naming.Isolation
/-!
# Names on request

Only members of a oneof have an option name, and only services have stub names.  A request for
anything else is refused for the first reason that there is.  A request that is not refused never
fails: an option joins two canonical names, a server name is a canonical name, and a client name
goes on from the same conversion with another suffix.
-/

namespace StubNames

open Schema (Builder Declaration Entity Graph Handle Kind)

namespace Resolver

variable {r : Resolver} {h : Handle} {e : Entity} {x : Except NamingError Identifier}

/-! ## Option names -/

theorem oneofOption_of_not_field (he : r.graph.get? h = some e)
    (hkind : ∀ oneof, e.kind ≠ .field oneof) :
    r.oneofOption h = .error (.wrongKind .oneofOption e.kind) := by
  rw [oneofOption, entity_of_get? he, pure_bind]
  split
  · next hplain => exact absurd hplain (hkind none)
  · next group hmember => exact absurd hmember (hkind (some group))
  · rfl

theorem oneofOption_of_plain_field (he : r.graph.get? h = some e) (hkind : e.kind = .field none) :
    r.oneofOption h = .error (.notOneofMember e.fullName) := by
  rw [oneofOption, entity_of_get? he, pure_bind, hkind]
  rfl

/-- The message of a member and the member itself have canonical names. -/
theorem oneofOption_eq_join (hg : r.graph.WellFormed) (he : r.graph.get? h = some e)
    {group : Handle} (hkind : e.kind = .field (some group)) :
    ∃ p m outer own, e.parent = some p ∧ r.graph.get? p = some m ∧ m.kind = .message ∧
      r.name p = .ok outer ∧ r.name h = .ok own ∧ r.oneofOption h = .ok (outer.join own) := by
  obtain ⟨p, m, hp, hm, hmessage, hoption⟩ := oneofOption_of_member hg he hkind
  exact ⟨p, m, _, _, hp, hm, hmessage, name_of_type_eq_typeText hg hm (.inl hmessage),
    name_of_isField he (.inr ⟨_, hkind⟩), hoption⟩

inductive OptionAnswer (r : Resolver) (h : Handle) : Except NamingError Identifier → Prop where
  | foreign (hnone : r.graph.get? h = none) : OptionAnswer r h (.error (.unknownEntity h))
  | misdirected {e : Entity} (he : r.graph.get? h = some e)
      (hkind : ∀ oneof, e.kind ≠ .field oneof) :
      OptionAnswer r h (.error (.wrongKind .oneofOption e.kind))
  | plainField {e : Entity} (he : r.graph.get? h = some e) (hkind : e.kind = .field none) :
      OptionAnswer r h (.error (.notOneofMember e.fullName))
  | member {e m : Entity} {group p : Handle} {outer own : Identifier}
      (he : r.graph.get? h = some e) (hkind : e.kind = .field (some group))
      (hp : e.parent = some p) (hm : r.graph.get? p = some m) (hmessage : m.kind = .message)
      (houter : r.name p = .ok outer) (hown : r.name h = .ok own) :
      OptionAnswer r h (.ok ⟨outer.text ++ "_" ++ own.text⟩)

theorem OptionAnswer.eq_oneofOption (hg : r.graph.WellFormed) (hx : r.OptionAnswer h x) :
    r.oneofOption h = x := by
  cases hx with
  | foreign hnone => exact (Graph.rejects_of_get?_eq_none hnone).oneofOption r.convention
  | misdirected he hkind => exact oneofOption_of_not_field he hkind
  | plainField he hkind => exact oneofOption_of_plain_field he hkind
  | @member e m group p outer own he hkind hp hm hmessage houter hown =>
      obtain ⟨p', m', outer', own', hp', -, -, houter', hown', hoption⟩ :=
        oneofOption_eq_join hg he hkind
      obtain rfl : p = p' := Option.some.inj (hp.symm.trans hp')
      obtain rfl : outer = outer' := Except.ok.inj (houter.symm.trans houter')
      obtain rfl : own = own' := Except.ok.inj (hown.symm.trans hown')
      exact hoption

theorem exists_optionAnswer (hg : r.graph.WellFormed) (h : Handle) :
    ∃ x, r.OptionAnswer h x := by
  cases he : r.graph.get? h with
  | none => exact ⟨_, .foreign he⟩
  | some e =>
      by_cases hfield : ∃ oneof, e.kind = .field oneof
      · obtain ⟨oneof, hkind⟩ := hfield
        cases oneof with
        | none => exact ⟨_, .plainField he hkind⟩
        | some group =>
            obtain ⟨p, m, outer, own, hp, hm, hmessage, houter, hown, -⟩ :=
              oneofOption_eq_join hg he hkind
            exact ⟨_, .member he hkind hp hm hmessage houter hown⟩
      · exact ⟨_, .misdirected he fun oneof hkind => hfield ⟨oneof, hkind⟩⟩

theorem oneofOption_eq_iff (hg : r.graph.WellFormed) :
    r.oneofOption h = x ↔ r.OptionAnswer h x := by
  refine ⟨?_, fun hx => hx.eq_oneofOption hg⟩
  rintro rfl
  obtain ⟨x, hx⟩ := exists_optionAnswer hg h
  rw [hx.eq_oneofOption hg]
  exact hx

/-! ## Stub names -/

theorem serviceName_of_not_service (he : r.graph.get? h = some e) (hkind : e.kind ≠ .service)
    (request : NameRequest) (suffix : Suffix) :
    r.serviceName request suffix h = .error (.wrongKind request e.kind) := by
  rw [serviceName, entity_of_get? he, pure_bind, if_neg hkind]
  rfl

theorem serviceName_of_foreign (hnone : r.graph.get? h = none) (request : NameRequest)
    (suffix : Suffix) : r.serviceName request suffix h = .error (.unknownEntity h) := by
  rw [serviceName, entity, hnone]
  rfl

inductive StubAnswer (r : Resolver) (request : NameRequest) (suffix : Suffix) (h : Handle) :
    Except NamingError Identifier → Prop where
  | foreign (hnone : r.graph.get? h = none) :
      StubAnswer r request suffix h (.error (.unknownEntity h))
  | misdirected {e : Entity} (he : r.graph.get? h = some e) (hkind : e.kind ≠ .service) :
      StubAnswer r request suffix h (.error (.wrongKind request e.kind))
  | service {e : Entity} (he : r.graph.get? h = some e) (hkind : e.kind = .service) :
      StubAnswer r request suffix h (.ok ⟨(upperCamel e.name).text ++ suffix.text⟩)

theorem serviceName_eq_iff {request : NameRequest} {suffix : Suffix} :
    r.serviceName request suffix h = x ↔ r.StubAnswer request suffix h x := by
  constructor
  · rintro rfl
    cases he : r.graph.get? h with
    | none =>
        rw [serviceName_of_foreign he]
        exact .foreign he
    | some e =>
        by_cases hkind : e.kind = .service
        · rw [serviceName_of_service he hkind]
          exact .service he hkind
        · rw [serviceName_of_not_service he hkind]
          exact .misdirected he hkind
  · intro hx
    cases hx with
    | foreign hnone => exact serviceName_of_foreign hnone request suffix
    | misdirected he hkind => exact serviceName_of_not_service he hkind request suffix
    | service he hkind => exact serviceName_of_service he hkind request suffix

theorem serverName_eq_name (he : r.graph.get? h = some e) (hkind : e.kind = .service) :
    r.serverName h = r.name h := by
  rw [name_of_service he hkind]
  exact serviceName_of_service he hkind .serverName r.convention.serverSuffix

end Resolver

/-- Whatever was declared and under any convention, a request has one answer.  The server name of a
service is its canonical name, and its client name is the same conversion under another suffix. -/
theorem requests_answered (number : Nat) (ds : List Declaration) (convention : Convention)
    (h : Handle) :
    let r : Resolver := ⟨((Builder.start number).run ds).build, convention⟩
    (∀ x, r.oneofOption h = x ↔ r.OptionAnswer h x) ∧
    (∀ x, r.serverName h = x ↔ r.StubAnswer .serverName convention.serverSuffix h x) ∧
    (∀ x, r.clientName h = x ↔ r.StubAnswer .clientName convention.clientSuffix h x) ∧
    ∀ e, r.graph.get? h = some e → e.kind = .service →
      r.serverName h = r.name h ∧
      r.name h = .ok ⟨(upperCamel e.name).text ++ convention.serverSuffix.text⟩ ∧
      r.clientName h = .ok ⟨(upperCamel e.name).text ++ convention.clientSuffix.text⟩ := by
  intro r
  have hg : r.graph.WellFormed := (Builder.valid_run_start number ds).wellFormed
  refine ⟨fun x => Resolver.oneofOption_eq_iff hg, fun x => Resolver.serviceName_eq_iff,
    fun x => Resolver.serviceName_eq_iff, fun e he hkind => ⟨?_, ?_, ?_⟩⟩
  · exact Resolver.serverName_eq_name he hkind
  · exact Resolver.name_of_service he hkind
  · exact Resolver.serviceName_of_service he hkind .clientName convention.clientSuffix

def roomDeclarations : List Declaration :=
  [.package "chat", .file ⟨1, 0⟩ "chat.proto", .member .message ⟨1, 1⟩ "room",
    .member .message ⟨1, 2⟩ "event", .member .oneof ⟨1, 3⟩ "body", .oneofField ⟨1, 4⟩ "reset",
    .member .field ⟨1, 3⟩ "sent_at", .member .service ⟨1, 1⟩ "chat_room"]

theorem requests_answered_room :
    let r : Resolver := ⟨((Builder.start 1).run roomDeclarations).build, .go⟩
    r.oneofOption ⟨1, 5⟩ = .ok ⟨"Room_Event_Reset_"⟩ ∧
      r.oneofOption ⟨1, 6⟩ = .error (.notOneofMember ".chat.room.event.sent_at") ∧
      r.oneofOption ⟨1, 7⟩ = .error (.wrongKind .oneofOption .service) ∧
      r.clientName ⟨2, 7⟩ = .error (.unknownEntity ⟨2, 7⟩) ∧
      r.serverName ⟨1, 7⟩ = r.name ⟨1, 7⟩ ∧ r.clientName ⟨1, 7⟩ = .ok ⟨"ChatRoomClient"⟩ := by
  intro r
  have hevent : r.graph.get? ⟨1, 3⟩ = some ⟨.message, "event", ".chat.room.event", some ⟨1, 2⟩,
      some ⟨1, 0⟩, [⟨1, 4⟩, ⟨1, 5⟩, ⟨1, 6⟩]⟩ := by
    decide +kernel
  have hreset : r.graph.get? ⟨1, 5⟩ = some ⟨.field (some ⟨1, 4⟩), "reset",
      ".chat.room.event.reset", some ⟨1, 3⟩, some ⟨1, 0⟩, []⟩ := by
    decide +kernel
  have hsent : r.graph.get? ⟨1, 6⟩ = some ⟨.field none, "sent_at", ".chat.room.event.sent_at",
      some ⟨1, 3⟩, some ⟨1, 0⟩, []⟩ := by
    decide +kernel
  have hroom : r.graph.get? ⟨1, 7⟩ = some ⟨.service, "chat_room", ".chat.chat_room",
      some ⟨1, 1⟩, some ⟨1, 0⟩, []⟩ := by
    decide +kernel
  have houter : r.name ⟨1, 3⟩ = .ok ⟨"Room_Event"⟩ := by
    decide +kernel
  have hown : r.name ⟨1, 5⟩ = .ok ⟨"Reset_"⟩ := by
    decide +kernel
  have hanswers := requests_answered 1 roomDeclarations .go
  refine ⟨?_, ?_, ?_, ?_, ?_, ?_⟩
  · exact ((hanswers ⟨1, 5⟩).1 _).2 (.member hreset rfl rfl hevent rfl houter hown)
  · exact ((hanswers ⟨1, 6⟩).1 _).2 (.plainField hsent rfl)
  · exact ((hanswers ⟨1, 7⟩).1 _).2 (.misdirected hroom (by simp))
  · exact ((hanswers ⟨2, 7⟩).2.2.1 _).2 (.foreign (by decide +kernel))
  · exact ((hanswers ⟨1, 7⟩).2.2.2 _ hroom rfl).1
  · rw [((hanswers ⟨1, 7⟩).2.2.2 _ hroom rfl).2.2]
    exact congrArg (fun text => Except.ok (Identifier.mk text)) (by decide +kernel)

end StubNames
