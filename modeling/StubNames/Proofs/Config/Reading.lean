import StubNames.Proofs.Config.Acceptance
/-!
# Texts that read as configurations

Reading a text comes before validating it.  Whatever the reader, a text either reads as exactly one
configuration, or loading it fails with one of the two errors that say so.
-/

namespace StubNames.Config

/-- Whether a text reads as a configuration, which need not be valid. -/
def Reads (read : Reader) (text : String) (c : Config) : Prop :=
  ∃ t, read text = some t ∧ decode t = .ok c

inductive Unread (filename : String) : ConfigError → Prop where
  | malformed : Unread filename (.malformed filename)
  | undecodable {cause : Fault} {span : Span} :
      Unread filename (.undecodable filename cause span)

variable {read : Reader} {filename text : String} {c : Config}

theorem reads_iff_of_read {t : Toml.Table Toml.Node} (h : read text = some t) :
    Reads read text c ↔ decode t = .ok c := by
  constructor
  · rintro ⟨t', ht', hdecode⟩
    rw [h] at ht'
    cases ht'
    exact hdecode
  · intro hdecode
    exact ⟨t, h, hdecode⟩

theorem parse_eq_ok_iff : parse read filename text = .ok c ↔ Reads read text c := by
  unfold parse Reads
  cases read text with
  | none => simp
  | some t => simp [mapError_eq_ok_iff]

theorem unread_of_parse {e : ConfigError} (h : parse read filename text = .error e) :
    Unread filename e := by
  unfold parse at h
  split at h
  · cases h
    exact .malformed
  · next t _ =>
      cases hdecode : decode t with
      | ok c =>
          rw [hdecode] at h
          cases h
      | error d =>
          rw [hdecode] at h
          have he := Except.error.inj h
          split at he
          · exact he ▸ .undecodable
          · exact he ▸ .malformed

theorem loadWith_of_reads (h : Reads read text c) :
    loadWith read filename text = (validate filename text c).map fun _ => c := by
  rw [loadWith, parse_eq_ok_iff.2 h]
  cases hvalidate : validate filename text c with
  | error e => simp [bind, Except.bind, hvalidate, Except.map]
  | ok u => simp [bind, Except.bind, hvalidate, Except.map, pure, Except.pure]

theorem exists_loadWith_eq_error (h : ∀ c, ¬Reads read text c) :
    ∃ e, loadWith read filename text = .error e ∧ Unread filename e := by
  cases hparse : parse read filename text with
  | ok c => exact absurd (parse_eq_ok_iff.1 hparse) (h c)
  | error e =>
      refine ⟨e, ?_, unread_of_parse hparse⟩
      rw [loadWith, hparse]
      rfl

end StubNames.Config
