import StubNames.Proofs.Config.Validation
import StubNames.Proofs.Text.Search
/-!
# What the label of an error covers

An error about a value of the configuration points at the first place where the text shows that
value between double quotes, and covers exactly the value there.  Where the text never shows it so,
the error points nowhere.
-/

namespace StubNames

namespace ConfigError

/-- The value that an error is about: the suffix that must not be empty, or the name that is not
plain. -/
def value? : ConfigError → Option String
  | .emptyEscape .. => some ""
  | .invalidReserved _ name _ _ => some name
  | _ => none

def place? (e : ConfigError) : Option Span :=
  e.label?.map Prod.snd

end ConfigError

namespace Config

open Text (Covers QuotedAt findQuoted? findQuoted?_eq_some_iff findQuoted?_eq_none_iff
  covers_of_quotedAt)

variable {read : Reader} {filename text value : String} {c : Config} {e : ConfigError}

theorem Unread.value?_eq_none (h : Unread filename e) : e.value? = none := by
  cases h with
  | malformed => rfl
  | undecodable => rfl

theorem Verdict.place?_eq (h : Verdict filename text c (.error e))
    (hvalue : e.value? = some value) : e.place? = findQuoted? value text := by
  cases h with
  | emptyEscape hescape =>
      cases hvalue
      simp [ConfigError.place?, ConfigError.label?]
  | invalidReserved hescape hnames hfront hname =>
      cases hvalue
      simp [ConfigError.place?, ConfigError.label?]

theorem place?_eq_of_loadWith (hload : loadWith read filename text = .error e)
    (hvalue : e.value? = some value) : e.place? = findQuoted? value text := by
  by_cases hreads : ∃ c, Reads read text c
  · obtain ⟨c, hc⟩ := hreads
    have hverdict : Verdict filename text c (loadWith read filename text) := verdict_loadWith hc
    rw [hload] at hverdict
    exact hverdict.place?_eq hvalue
  · obtain ⟨e', hload', hunread⟩ := exists_loadWith_eq_error fun c hc =>
      hreads ⟨c, hc⟩
    obtain rfl : e = e' := Except.error.inj (hload.symm.trans hload')
    rw [hunread.value?_eq_none] at hvalue
    cases hvalue

/-- With any reader, an error about a value points behind the first double quote that begins an
occurrence of the quoted value, and covers the bytes of the value, whole characters between two
double quotes.  It points nowhere exactly if the quoted value does not occur. -/
theorem label_exact (hload : loadWith read filename text = .error e)
    (hvalue : e.value? = some value) :
    (∀ span, e.place? = some span ↔
      ∃ p, IsLeast {p | QuotedAt value text p} p ∧ span = ⟨p + 1, value.utf8ByteSize⟩) ∧
    (∀ span, e.place? = some span → Covers span value text) ∧
    (e.place? = none ↔ ∀ p, ¬QuotedAt value text p) := by
  rw [place?_eq_of_loadWith hload hvalue]
  refine ⟨fun span => findQuoted?_eq_some_iff, fun span hspan => ?_, findQuoted?_eq_none_iff⟩
  obtain ⟨p, hleast, rfl⟩ := findQuoted?_eq_some_iff.1 hspan
  exact covers_of_quotedAt hleast.1

/-- The name is found behind characters of more than one byte and behind one of its own quotes, and
it is not found where it stands between single quotes. -/
theorem label_exact_e_acute :
    let text := "# «é\"\n[reserved]\nfields = [\"é\"]\n"
    let single := "[reserved]\nfields = ['é']\n"
    load "protoname.toml" text = .error (.invalidReserved "protoname.toml" "é" (.invalidStart 'é')
        (some ⟨30, 2⟩)) ∧
      Covers ⟨30, 2⟩ "é" text ∧ (∀ p < 29, ¬QuotedAt "é" text p) ∧
      load "protoname.toml" single = .error (.invalidReserved "protoname.toml" "é"
        (.invalidStart 'é') none) ∧
      ∀ p, ¬QuotedAt "é" single p := by
  intro text single
  have hload : load "protoname.toml" text = .error (.invalidReserved "protoname.toml" "é"
      (.invalidStart 'é') (some ⟨30, 2⟩)) := by decide +kernel
  have hsingle : load "protoname.toml" single = .error (.invalidReserved "protoname.toml" "é"
      (.invalidStart 'é') none) := by decide +kernel
  obtain ⟨hplace, hcovers, -⟩ := label_exact hload rfl
  obtain ⟨p, hleast, hspan⟩ := (hplace ⟨30, 2⟩).1 rfl
  obtain rfl : 29 = p := Nat.succ.inj (congrArg Span.offset hspan)
  refine ⟨hload, hcovers _ rfl, fun q hq hquoted => ?_, hsingle, ?_⟩
  · exact absurd (hleast.2 hquoted) (Nat.not_le_of_lt hq)
  · exact (label_exact hsingle rfl).2.2.1 rfl

end Config

end StubNames
