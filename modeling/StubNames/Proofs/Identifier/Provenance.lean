import StubNames.Datum
import StubNames.Proofs.Naming.Legality
/-!
# Where identifiers come from

An identifier is read from a text or from data, converted from a declared name, or resolved, and
then it may be joined, suffixed and escaped any number of times.  Nothing is checked on the way, and
still the result is in the dotted grammar.  Reading data asks for no more than that, so every
identifier that is written can be read back.
-/

namespace StubNames

open Schema (Builder Declaration Graph Handle)

def Resolver.Answers (r : Resolver) (h : Handle) (n : Identifier) : Prop :=
  r.name h = .ok n ∨ r.oneofOption h = .ok n ∨ r.clientName h = .ok n ∨ r.serverName h = .ok n

theorem Resolver.Answers.isDotted {r : Resolver} {h : Handle} {n : Identifier}
    (hg : r.graph.WellFormed) (hanswers : r.Answers h n) : Identifier.IsDotted n.text := by
  rcases hanswers with hname | hoption | hclient | hserver
  · obtain ⟨e, he⟩ := exists_entity_of_bind hname
    exact (name_madeOf hg he hname).dotted
  · obtain ⟨e, he⟩ := exists_entity_of_bind hoption
    exact (oneofOption_madeOf hg he hoption).dotted
  · obtain ⟨e, he⟩ := exists_entity_of_bind hclient
    exact (serviceName_madeOf he hclient).dotted
  · obtain ⟨e, he⟩ := exists_entity_of_bind hserver
    exact (serviceName_madeOf he hserver).dotted

namespace Identifier

variable {a b n : Identifier} {s : String}

/-! ## Written and read back -/

theorem ofDatum_eq_ok_iff {d : Datum} :
    ofDatum d = .ok n ↔ d = n.toDatum ∧ IsDotted n.text := by
  cases d with
  | text s =>
      have hread : ofDatum (.text s) = (parseDotted s).mapError .rejected := rfl
      rw [hread, mapError_eq_ok_iff, parseDotted, Grammar.read_eq_ok_iff, fault?_dotted_eq_none_iff,
        toDatum]
      constructor
      · rintro ⟨hdotted, rfl⟩
        exact ⟨rfl, hdotted⟩
      · rintro ⟨hsame, hdotted⟩
        obtain rfl : s = n.text := Datum.text.inj hsame
        exact ⟨hdotted, rfl⟩
  | _ => simp [ofDatum, Datum.readText, Datum.toText, toDatum]

theorem exists_ofDatum_text_iff : (∃ n, ofDatum (.text s) = .ok n) ↔ IsDotted s := by
  constructor
  · rintro ⟨n, hn⟩
    obtain ⟨hsame, hdotted⟩ := ofDatum_eq_ok_iff.1 hn
    obtain rfl : s = n.text := Datum.text.inj hsame
    exact hdotted
  · intro hdotted
    exact ⟨⟨s⟩, ofDatum_eq_ok_iff.2 ⟨rfl, hdotted⟩⟩

/-! ## All identifiers that there are -/

/-- What can be read, converted or resolved, and what composing and escaping makes of it. -/
inductive Obtained : Identifier → Prop where
  | parse {s : String} {n : Identifier} (h : parse s = .ok n) : Obtained n
  | parseDotted {s : String} {n : Identifier} (h : parseDotted s = .ok n) : Obtained n
  | ofDatum {d : Datum} {n : Identifier} (h : ofDatum d = .ok n) : Obtained n
  | upperCamel (name : String) : Obtained (upperCamel name)
  | resolved (number : Nat) (ds : List Declaration) (convention : Convention) {h : Handle}
      {n : Identifier}
      (hanswers : Resolver.Answers ⟨((Builder.start number).run ds).build, convention⟩ h n) :
      Obtained n
  | join {a b : Identifier} (ha : Obtained a) (hb : Obtained b) : Obtained (a.join b)
  | withSuffix {a : Identifier} (ha : Obtained a) (x : Suffix) : Obtained (a.withSuffix x)
  | safeFieldName {a : Identifier} (ha : Obtained a) (c : Convention) :
      Obtained (c.safeFieldName a)
  | safeTypeName {a : Identifier} (ha : Obtained a) (c : Convention) : Obtained (c.safeTypeName a)

theorem IsDotted.escapeIn (ha : IsDotted a.text) (c : Convention)
    (reserved : Ordered.Set String) : IsDotted (c.escapeIn reserved a).text := by
  unfold Convention.escapeIn
  split
  · exact ha.withSuffix c.escapeSuffix
  · exact ha

/-- Each way to come by an identifier stays within the dotted grammar. -/
theorem Obtained.isDotted (h : n.Obtained) : IsDotted n.text := by
  induction h with
  | parse h =>
      obtain ⟨hfault, rfl⟩ := Grammar.read_eq_ok_iff.1 h
      exact isDotted_of_fault? hfault
  | parseDotted h =>
      obtain ⟨hfault, rfl⟩ := Grammar.read_eq_ok_iff.1 h
      exact isDotted_of_fault? hfault
  | ofDatum h => exact (ofDatum_eq_ok_iff.1 h).2
  | upperCamel name => exact (MadeOf.upperCamel name).dotted
  | resolved number ds convention hanswers =>
      exact hanswers.isDotted (Builder.valid_run_start number ds).wellFormed
  | join _ _ iha ihb => exact iha.join ihb
  | withSuffix _ x iha => exact iha.withSuffix x
  | safeFieldName _ c iha =>
      rw [Convention.safeFieldName_eq_escapeIn]
      exact iha.escapeIn c c.reservedFields
  | safeTypeName _ c iha =>
      rw [Convention.safeTypeName_eq_escapeIn]
      exact iha.escapeIn c c.reservedTypes

/-- Nothing else is dotted than what can be obtained, by reading it if in no other way. -/
theorem obtained_iff : n.Obtained ↔ IsDotted n.text := by
  constructor
  · exact Obtained.isDotted
  · intro hdotted
    exact .ofDatum (ofDatum_eq_ok_iff.2 ⟨rfl, hdotted⟩)

/-- The identifiers that can be obtained are those that are dotted, and what is written of one is
read back as the same.  A text is read exactly if it is dotted, and then it is written again as it
was.  A joined identifier is plain if both of its parts are, and a suffixed one if it was before. -/
theorem obtained_exact :
    (∀ n : Identifier, n.Obtained ↔ IsDotted n.text) ∧
    (∀ n : Identifier, n.Obtained → ofDatum n.toDatum = .ok n) ∧
    (∀ s, (∃ n, ofDatum (.text s) = .ok n) ↔ IsDotted s) ∧
    (∀ s n, ofDatum (.text s) = .ok n → n.toDatum = .text s) ∧
    (∀ a b : Identifier, a.Obtained → b.Obtained →
      (isPlain (a.join b).text = true ↔ isPlain a.text = true ∧ isPlain b.text = true)) ∧
    ∀ (a : Identifier) (x : Suffix), a.Obtained →
      (isPlain (a.withSuffix x).text = true ↔ isPlain a.text = true) := by
  refine ⟨fun n => obtained_iff, fun n hn => ?_, fun s => exists_ofDatum_text_iff,
    fun s n hn => ?_, fun a b ha hb => ?_, fun a x ha => ?_⟩
  · exact ofDatum_eq_ok_iff.2 ⟨rfl, hn.isDotted⟩
  · exact (ofDatum_eq_ok_iff.1 hn).1.symm
  · exact isPlain_join_iff ha.isDotted hb.isDotted
  · exact isPlain_withSuffix_iff ha.isDotted x

/-- An escaped name, joined to one with a dot and suffixed. -/
theorem obtained_exact_stub :
    let a : Identifier := Convention.go.safeFieldName (StubNames.upperCamel "string")
    let n : Identifier := (a.join ⟨"v1.stub"⟩).withSuffix Convention.go.serverSuffix
    n.text = "String__v1.stubServer" ∧ ofDatum (.text "String__v1.stubServer") = .ok n ∧
      isPlain a.text = true ∧ ¬isPlain n.text = true := by
  intro a n
  obtain ⟨-, hread, -, -, hjoin, hsuffix⟩ := obtained_exact
  have ha : a.Obtained := .safeFieldName (.upperCamel "string") .go
  have hb : Obtained ⟨"v1.stub"⟩ := .parseDotted (s := "v1.stub") (by decide +kernel)
  have hn : n.Obtained := .withSuffix (.join ha hb) Convention.go.serverSuffix
  have htext : n.text = "String__v1.stubServer" := by decide +kernel
  refine ⟨htext, ?_, by decide +kernel, fun hplain => ?_⟩
  · rw [← htext]
    exact hread n hn
  · have hparts := (hjoin a ⟨"v1.stub"⟩ ha hb).1
      ((hsuffix _ Convention.go.serverSuffix (.join ha hb)).1 hplain)
    exact absurd hparts.2 (by decide +kernel)

end Identifier

end StubNames
