import Mathlib.Control.Monad.Basic
import StubNames.Proofs.Config.NormalForm
import StubNames.Proofs.Config.Reading
import StubNames.Proofs.Convention
import StubNames.Proofs.Identifier.Grammar
/-!
# The verdict on a configuration

An empty escape suffix is reported before any reserved name, and of the reserved names the first one
that is not a plain identifier, fields before types.  What is accepted makes a convention that can
escape all of its reserved names: each gets a longer name that is plain as well.
-/

namespace StubNames

/-- What escaping makes of a name that is taken: another one, which is longer and still plain. -/
structure Identifier.IsEscapeOf (b a : Identifier) : Prop where
  ne : b ≠ a
  longer : a.text.length < b.text.length
  isPlain : Identifier.isPlain b.text = true

theorem Convention.isEscapeOf_escapeIn {c : Convention} {reserved : Ordered.Set String}
    {a : Identifier} (hescape : c.escapeSuffix.text ≠ "") (ha : a.text ∈ reserved)
    (hplain : Identifier.isPlain a.text = true) : (c.escapeIn reserved a).IsEscapeOf a := by
  have htext := c.escapeIn_text_of_mem ha
  have hlength : c.escapeSuffix.text.length ≠ 0 := by simpa using hescape
  have hlonger : a.text.length < (c.escapeIn reserved a).text.length := by
    rw [htext, String.length_append]
    omega
  refine ⟨fun hsame => ?_, hlonger, ?_⟩
  · rw [hsame] at hlonger
    exact Nat.lt_irrefl _ hlonger
  · have hsuffix : (c.escapeIn reserved a).text = (a.withSuffix c.escapeSuffix).text := htext
    rw [hsuffix]
    exact (Identifier.isPlain_withSuffix_iff (Identifier.isPlain_iff.1 hplain).1 _).2 hplain

namespace Config

/-! ## The first invalid name -/

theorem parse_eq_error_iff {name : String} {cause : IdentifierError} :
    Identifier.parse name = .error cause ↔
      Identifier.Grammar.plain.fault? name = some cause :=
  Identifier.Grammar.read_eq_error_iff

theorem firstInvalid?_eq_findSome? (names : List String) :
    firstInvalid? names = names.findSome? fun name =>
      (Identifier.Grammar.plain.fault? name).map fun cause => (name, cause) := by
  induction names with
  | nil => rfl
  | cons name names ih =>
      rw [firstInvalid?, List.findSome?_cons, ih]
      cases Identifier.Grammar.plain.fault? name <;> rfl

theorem firstInvalid?_eq_some_iff {names : List String} {name : String}
    {cause : IdentifierError} : firstInvalid? names = some (name, cause) ↔
      ∃ front back, names = front ++ name :: back ∧
        (∀ n ∈ front, Identifier.isPlain n = true) ∧ Identifier.parse name = .error cause := by
  rw [firstInvalid?_eq_findSome?, List.findSome?_eq_some_iff]
  constructor
  · rintro ⟨front, n, back, hnames, hn, hfront⟩
    obtain ⟨cause, hcause, hpair⟩ := Option.map_eq_some_iff.1 hn
    obtain ⟨rfl, rfl⟩ := Prod.mk.inj hpair
    refine ⟨front, back, hnames, fun n hn => ?_, parse_eq_error_iff.2 hcause⟩
    simpa [Identifier.isPlain] using hfront n hn
  · rintro ⟨front, back, hnames, hfront, hname⟩
    refine ⟨front, name, back, hnames, ?_, fun n hn => ?_⟩
    · rw [parse_eq_error_iff.1 hname]
      rfl
    · simpa [Identifier.isPlain] using hfront n hn

/-! ## The verdict -/

/-- What loading answers for a text that reads as a configuration. -/
inductive Verdict (filename text : String) (c : Config) : Except ConfigError Config → Prop where
  | emptyEscape (hescape : c.suffixes.escape.text = "") :
      Verdict filename text c (.error (.emptyEscape filename (Text.findQuoted? "" text)))
  /-- All names in front of the one that is reported are plain. -/
  | invalidReserved {front back : List String} {name : String} {cause : IdentifierError}
      (hescape : c.suffixes.escape.text ≠ "")
      (hnames : c.reserved.fields ++ c.reserved.types = front ++ name :: back)
      (hfront : ∀ n ∈ front, Identifier.isPlain n = true)
      (hname : Identifier.parse name = .error cause) :
      Verdict filename text c
        (.error (.invalidReserved filename name cause (Text.findQuoted? name text)))
  | accepted (hvalid : c.Valid) : Verdict filename text c (.ok c)

variable {read : Reader} {filename text : String} {c : Config}
  {answer : Except ConfigError Config}

theorem isEmpty_escape_iff : c.suffixes.escape.isEmpty = true ↔ c.suffixes.escape.text = "" := by
  simp [Suffix.isEmpty]

theorem verdict_loadWith (hreads : Reads read text c) :
    Verdict filename text c (loadWith read filename text) := by
  rw [loadWith_of_reads hreads]
  by_cases hempty : c.suffixes.escape.text = ""
  · rw [validate, if_pos (isEmpty_escape_iff.2 hempty), hempty]
    exact .emptyEscape hempty
  · cases hinvalid : firstInvalid? (c.reserved.fields ++ c.reserved.types) with
    | none =>
        have hvalid : c.Valid := ⟨hempty, firstInvalid?_eq_none_iff.1 hinvalid⟩
        rw [validate_eq_ok_iff.2 hvalid]
        exact .accepted hvalid
    | some found =>
        obtain ⟨front, back, hnames, hfront, hname⟩ := firstInvalid?_eq_some_iff.1 hinvalid
        rw [validate, if_neg (mt isEmpty_escape_iff.1 hempty), hinvalid]
        exact .invalidReserved hempty hnames hfront hname

/-- There is only one verdict. -/
theorem Verdict.loadWith_eq (hreads : Reads read text c) (h : Verdict filename text c answer) :
    loadWith read filename text = answer := by
  rw [loadWith_of_reads hreads]
  cases h with
  | emptyEscape hempty =>
      rw [validate, if_pos (isEmpty_escape_iff.2 hempty), hempty]
      rfl
  | invalidReserved hescape hnames hfront hname =>
      have hinvalid := firstInvalid?_eq_some_iff.2 ⟨_, _, hnames, hfront, hname⟩
      rw [validate, if_neg (mt isEmpty_escape_iff.1 hescape), hinvalid]
      rfl
  | accepted hvalid =>
      rw [validate_eq_ok_iff.2 hvalid]
      rfl

theorem Verdict.not_unread {e : ConfigError} (h : Verdict filename text c (.error e)) :
    ¬Unread filename e := by
  intro hunread
  cases h with
  | emptyEscape => cases hunread
  | invalidReserved => cases hunread

theorem load_fails_unread_iff :
    (∃ e, loadWith read filename text = .error e ∧ Unread filename e) ↔
      ∀ c, ¬Reads read text c := by
  constructor
  · rintro ⟨e, hload, hunread⟩ c hreads
    have hverdict : Verdict filename text c (loadWith read filename text) :=
      verdict_loadWith hreads
    rw [hload] at hverdict
    exact hverdict.not_unread hunread
  · exact exists_loadWith_eq_error

/-! ## The convention of an accepted configuration -/

theorem isPlain_of_mem_goReservedFields {name : String}
    (h : name ∈ Convention.goReservedFields) : Identifier.isPlain name = true := by
  have hall : Convention.goReservedFields.all Identifier.isPlain = true := by decide +kernel
  exact List.all_eq_true.1 hall name h

theorem mem_reservedFields_convention {name : String} : name ∈ c.convention.reservedFields ↔
    (c.reserved.extend = true ∧ name ∈ Convention.goReservedFields) ∨
      name ∈ c.reserved.fields := by
  rw [reservedFields_convention, Ordered.Set.mem_ofList, listedFields, List.mem_append]
  cases c.reserved.extend with
  | false => simp
  | true => simp

theorem mem_reservedTypes_convention {name : String} :
    name ∈ c.convention.reservedTypes ↔ name ∈ c.reserved.types := by
  rw [reservedTypes_convention, Ordered.Set.mem_ofList]

theorem Valid.isPlain_field (hvalid : c.Valid) {name : String}
    (h : name ∈ c.convention.reservedFields) : Identifier.isPlain name = true := by
  rcases mem_reservedFields_convention.1 h with ⟨-, hgo⟩ | hfield
  · exact isPlain_of_mem_goReservedFields hgo
  · exact hvalid.isPlain name (List.mem_append_left _ hfield)

theorem Valid.isPlain_type (hvalid : c.Valid) {name : String}
    (h : name ∈ c.convention.reservedTypes) : Identifier.isPlain name = true :=
  hvalid.isPlain name (List.mem_append_right _ (mem_reservedTypes_convention.1 h))

/-- With any reader, loading a text fails as unread exactly if the text does not read as a
configuration, and otherwise gives the verdict on what it reads as.  The convention of an accepted
configuration has a suffix to escape with and plain names to reserve, and it escapes each of these
to a longer plain name. -/
theorem load_exact (read : Reader) (filename text : String) :
    ((∃ e, loadWith read filename text = .error e ∧ Unread filename e) ↔
      ∀ c, ¬Reads read text c) ∧
    (∀ c, Reads read text c → ∀ answer,
      loadWith read filename text = answer ↔ Verdict filename text c answer) ∧
    ∀ c, loadWith read filename text = .ok c →
      c.convention.escapeSuffix.text ≠ "" ∧
      (∀ name ∈ c.convention.reservedFields, Identifier.isPlain name = true) ∧
      (∀ name ∈ c.convention.reservedTypes, Identifier.isPlain name = true) ∧
      (∀ a : Identifier, a.text ∈ c.convention.reservedFields →
        (c.convention.safeFieldName a).IsEscapeOf a) ∧
      ∀ a : Identifier, a.text ∈ c.convention.reservedTypes →
        (c.convention.safeTypeName a).IsEscapeOf a := by
  refine ⟨load_fails_unread_iff, fun c hreads answer => ⟨?_, fun h => h.loadWith_eq hreads⟩,
    fun c hload => ?_⟩
  · rintro rfl
    exact verdict_loadWith hreads
  · have hvalid := (loadWith_eq_ok_iff.1 hload).2
    have hescape : c.convention.escapeSuffix.text ≠ "" := hvalid.escape_ne_empty
    refine ⟨hescape, fun name => hvalid.isPlain_field, fun name => hvalid.isPlain_type, ?_, ?_⟩
    · intro a ha
      rw [Convention.safeFieldName_eq_escapeIn]
      exact Convention.isEscapeOf_escapeIn hescape ha (hvalid.isPlain_field ha)
    · intro a ha
      rw [Convention.safeTypeName_eq_escapeIn]
      exact Convention.isEscapeOf_escapeIn hescape ha (hvalid.isPlain_type ha)

def nineLivesConfig : Config where
  reserved := { fields := ["Clone", "9lives"], types := ["a-b"] }

theorem load_exact_nine_lives :
    let text := "[reserved]\nfields = [\"Clone\", \"9lives\"]\ntypes = [\"a-b\"]\n"
    Reads Toml.document? text nineLivesConfig ∧
      load "protoname.toml" text =
        .error (.invalidReserved "protoname.toml" "9lives" (.invalidStart '9') (some ⟨31, 6⟩)) := by
  intro text
  have hreads : Reads Toml.document? text nineLivesConfig := by
    have hparse : parse Toml.document? "protoname.toml" text = .ok nineLivesConfig := by decide +kernel
    exact parse_eq_ok_iff.1 hparse
  have hplace : Text.findQuoted? "9lives" text = some ⟨31, 6⟩ := by decide +kernel
  have hnames : nineLivesConfig.reserved.fields ++ nineLivesConfig.reserved.types =
      ["Clone"] ++ "9lives" :: ["a-b"] := rfl
  have hfront : ∀ n ∈ ["Clone"], Identifier.isPlain n = true := by
    intro n hn
    rw [List.mem_singleton.1 hn]
    decide +kernel
  refine ⟨hreads, ((load_exact Toml.document? "protoname.toml" text).2.1 _ hreads _).2 ?_⟩
  rw [← hplace]
  exact .invalidReserved (by decide) hnames hfront rfl

end Config

end StubNames
