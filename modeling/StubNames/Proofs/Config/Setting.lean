import Mathlib.Data.List.Forall2
import StubNames.Config.Decode
import StubNames.Proofs.Except
import StubNames.Proofs.Identifier.Grammar
import StubNames.Proofs.Toml.Sorted
/-!
# Settings

The values that a configuration is made of are booleans, texts and lists of texts, each read from
one node of a document.  A setting for which nothing is written keeps its default.  `Given` says
this of one step of a decoder as well as of all its steps together.
-/

namespace StubNames

open Toml (Increasing Node Stretch)

/-! ## Tables by name -/

namespace Toml.Table

variable {α : Type} {t : Table α}

def get? (t : Table α) (name : String) : Option α :=
  (t.entries.find? fun e => e.1.name = name).map Prod.snd

def HasDistinctNames (t : Table α) : Prop :=
  (t.entries.map fun e => e.1.name).Nodup

theorem hasDistinctNames_of_increasing (h : Increasing t.entries) : t.HasDistinctNames := by
  refine List.Pairwise.map _ (fun a b hlt hname => ?_) h
  rw [hname] at hlt
  exact String.lt_irrefl _ hlt

theorem exists_mem_of_get? {name : String} {a : α} (h : t.get? name = some a) :
    ∃ key, (key, a) ∈ t.entries := by
  obtain ⟨⟨key, _⟩, hfind, rfl⟩ := Option.map_eq_some_iff.1 h
  exact ⟨key, List.mem_of_find?_eq_some hfind⟩

end Toml.Table

namespace Config

/-! ## Values in nodes -/

def IsBoolean (b : Bool) (node : Node) : Prop :=
  ∃ place, node = .scalar place (.boolean b)

def IsText (s : String) (node : Node) : Prop :=
  ∃ place, node = .scalar place (.text s)

def IsTexts (ss : List String) (node : Node) : Prop :=
  ∃ place ofTables items, node = .array place ofTables items ∧ List.Forall₂ IsText ss items

theorem expected_ne_ok {α : Type} (what : String) (node : Node) (a : α) :
    expected what node ≠ .ok a := by
  rw [expected, Ne, bind_eq_ok_iff]
  rintro ⟨d, -, h⟩
  cases h

theorem decodeBoolean_eq_ok_iff {node : Node} {b : Bool} :
    decodeBoolean node = .ok b ↔ IsBoolean b node := by
  constructor
  · intro h
    unfold decodeBoolean at h
    split at h
    · next place value =>
        cases h
        exact ⟨place, rfl⟩
    · exact absurd h (expected_ne_ok _ _ _)
  · rintro ⟨place, rfl⟩
    rfl

theorem decodeText_eq_ok_iff {node : Node} {s : String} :
    decodeText node = .ok s ↔ IsText s node := by
  constructor
  · intro h
    obtain ⟨d, hd, hs⟩ := bind_eq_ok_iff.1 h
    obtain rfl : d = .text s := by
      rw [mapError_eq_ok_iff] at hs
      cases d <;> cases hs
      rfl
    unfold datum at hd
    split at hd
    · next place value =>
        cases hd
        exact ⟨place, rfl⟩
    all_goals cases hd
  · rintro ⟨place, rfl⟩
    rfl

theorem mapM_eq_ok_iff {α β ε : Type} {f : α → Except ε β} {as : List α} {bs : List β} :
    as.mapM f = .ok bs ↔ List.Forall₂ (fun b a => f a = .ok b) bs as := by
  induction as generalizing bs with
  | nil =>
      rw [List.mapM_nil, List.forall₂_nil_right_iff]
      constructor
      · intro h
        cases h
        rfl
      · rintro rfl
        rfl
  | cons a as ih =>
      rw [List.mapM_cons, bind_eq_ok_iff, List.forall₂_cons_right_iff]
      constructor
      · rintro ⟨b, hb, h⟩
        obtain ⟨bs', hbs, h⟩ := bind_eq_ok_iff.1 h
        cases h
        exact ⟨b, bs', hb, ih.1 hbs, rfl⟩
      · rintro ⟨b, bs', hb, hbs, rfl⟩
        exact ⟨b, hb, bind_eq_ok_iff.2 ⟨bs', ih.2 hbs, rfl⟩⟩

theorem decodeTexts_eq_ok_iff {node : Node} {ss : List String} :
    decodeTexts node = .ok ss ↔ IsTexts ss node := by
  have hitems {items : List Node} :
      items.mapM decodeText = .ok ss ↔ List.Forall₂ IsText ss items := by
    simp only [mapM_eq_ok_iff, decodeText_eq_ok_iff]
  constructor
  · intro h
    unfold decodeTexts at h
    split at h
    · next place ofTables items => exact ⟨place, ofTables, items, rfl, hitems.1 h⟩
    · exact absurd h (expected_ne_ok _ _ _)
  · rintro ⟨place, ofTables, items, rfl, h⟩
    exact hitems.2 h

theorem decodeSuffix_eq_ok_iff {blamed : Stretch} {node : Node} {x : Suffix} :
    decodeSuffix blamed node = .ok x ↔ IsText x.text node := by
  simp only [decodeSuffix, bind_eq_ok_iff, mapError_eq_ok_iff, decodeText_eq_ok_iff,
    Suffix.parse_eq_ok_iff]
  exact ⟨fun ⟨s, hs, h⟩ => h ▸ hs, fun h => ⟨_, h, rfl⟩⟩

/-! ## What is given for a setting -/

/-- The value of a setting is what is written for it, or the default if nothing is. -/
def Given {β : Type} (denotes : β → Node → Prop) (default : β) (written : Option Node)
    (value : β) : Prop :=
  match written with
  | none => value = default
  | some node => denotes value node

theorem exists_given_iff {β : Type} {denotes : β → Node → Prop} {default : β}
    {written : Option Node} :
    (∃ value, Given denotes default written value) ↔
      ∀ node ∈ written, ∃ value, denotes value node := by
  cases written with
  | none => exact ⟨fun _ => nofun, fun _ => ⟨default, rfl⟩⟩
  | some node => simp [Given]

theorem itemOr_eq_ok_iff {β : Type} {denotes : β → Node → Prop}
    {decode : Node → Except DecodeError β}
    (hdecode : ∀ node value, decode node = .ok value ↔ denotes value node) {items : List Node}
    {i : Nat} {default value : β} :
    itemOr items i default decode = .ok value ↔ Given denotes default items[i]? value := by
  unfold itemOr Given
  cases items[i]? with
  | none => simp [eq_comm]
  | some item => exact hdecode item value

end Config

end StubNames
