import StubNames.Config.Load
import StubNames.Proofs.Except
/-!
# Accepted configurations

A text is accepted when it reads as a configuration whose escape suffix is not empty and whose
reserved names are plain identifiers.
-/

namespace StubNames.Config

structure Valid (c : Config) : Prop where
  escape_ne_empty : c.suffixes.escape.text ≠ ""
  isPlain : ∀ name ∈ c.reserved.fields ++ c.reserved.types, Identifier.isPlain name = true

theorem firstInvalid?_eq_none_iff {names : List String} :
    firstInvalid? names = none ↔ ∀ name ∈ names, Identifier.isPlain name = true := by
  induction names with
  | nil => simp [firstInvalid?]
  | cons name names ih =>
      rw [firstInvalid?, List.forall_mem_cons, Identifier.isPlain]
      cases Identifier.Grammar.plain.fault? name with
      | none => simpa using ih
      | some e => simp

theorem validate_eq_ok_iff {filename text : String} {c : Config} :
    validate filename text c = .ok () ↔ c.Valid := by
  unfold validate
  split
  · next hempty =>
      have hescape : c.suffixes.escape.text = "" := by simpa [Suffix.isEmpty] using hempty
      exact ⟨fun hok => (nomatch hok), fun hvalid => absurd hescape hvalid.escape_ne_empty⟩
  · next hempty =>
      have hescape : c.suffixes.escape.text ≠ "" := by simpa [Suffix.isEmpty] using hempty
      split
      · next name cause hinvalid =>
          refine ⟨fun hok => (nomatch hok), fun hvalid => ?_⟩
          rw [firstInvalid?_eq_none_iff.2 hvalid.isPlain] at hinvalid
          cases hinvalid
      · next hnone => exact ⟨fun _ => ⟨hescape, firstInvalid?_eq_none_iff.1 hnone⟩, fun _ => rfl⟩

theorem loadWith_eq_ok_iff {read : Reader} {filename text : String} {c : Config} :
    loadWith read filename text = .ok c ↔ parse read filename text = .ok c ∧ c.Valid := by
  rw [loadWith, bind_eq_ok_iff]
  constructor
  · rintro ⟨c', hparse, hrest⟩
    obtain ⟨⟨⟩, hvalidate, hreturn⟩ := bind_eq_ok_iff.1 hrest
    cases hreturn
    exact ⟨hparse, validate_eq_ok_iff.1 hvalidate⟩
  · rintro ⟨hparse, hvalid⟩
    refine ⟨c, hparse, ?_⟩
    rw [validate_eq_ok_iff.2 hvalid]
    rfl

end StubNames.Config
