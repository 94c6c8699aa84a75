import Mathlib.Data.List.Nodup
import StubNames.Proofs.Config.Setting
/-!
# Sections

A record is decoded setting by setting.  In a table the node for a setting stands under its name,
and in an array at the place that the name has among the names of all settings.  `setWith` and
`itemsWith` are the two decoders for any list of settings; which nodes they take and what they make
of them is shown here once for all records.
-/

namespace StubNames.Config

open Toml (Key Node Scalar Stretch Table)

/-- A value of a record: how it is decoded, which nodes it is decoded from, and where the record has
it.  The place is the one that a decoder blames for what is wrong with the value. -/
structure Setting (α : Type) where
  name : String
  Value : Type
  decode : Stretch → Node → Except DecodeError Value
  Denotes : Value → Node → Prop
  decode_eq_ok_iff : ∀ {place node value}, decode place node = .ok value ↔ Denotes value node
  get : α → Value
  put : α → Value → α
  get_put : ∀ a value, get (put a value) = value

variable {α : Type}

/-- Settings are told apart by their names, and changing one of them keeps the others. -/
structure Independent (settings : List (Setting α)) : Prop where
  nodup : (settings.map Setting.name).Nodup
  get_put_of_ne : ∀ s ∈ settings, ∀ u ∈ settings, s.name ≠ u.name →
    ∀ a value, u.get (s.put a value) = u.get a

def Accepts (settings : List (Setting α)) (name : String) (node : Node) : Prop :=
  ∃ s ∈ settings, name = s.name ∧ ∃ value, s.Denotes value node

/-- Each setting is what is written under its name, over some defaults. -/
def AllGiven (settings : List (Setting α)) (default : α) (written : String → Option Node)
    (a : α) : Prop :=
  ∀ s ∈ settings, Given s.Denotes (s.get default) (written s.name) (s.get a)

variable {s : Setting α} {settings : List (Setting α)} {known : List String}
  {default a a' : α} {key : Key} {node : Node} {place : Stretch}

namespace Independent

theorem tail (h : Independent (s :: settings)) : Independent settings where
  nodup := (List.nodup_cons.1 h.nodup).2
  get_put_of_ne u hu v hv :=
    h.get_put_of_ne u (List.mem_cons_of_mem _ hu) v (List.mem_cons_of_mem _ hv)

theorem name_ne (h : Independent (s :: settings)) {u : Setting α} (hu : u ∈ settings) :
    s.name ≠ u.name := by
  intro hname
  exact (List.nodup_cons.1 h.nodup).1 (List.mem_map.2 ⟨u, hu, hname.symm⟩)

theorem eq_of_name_eq (h : Independent settings) {u : Setting α} (hs : s ∈ settings)
    (hu : u ∈ settings) (hname : s.name = u.name) : s = u :=
  List.inj_on_of_nodup_map h.nodup hs hu hname

theorem accepts_iff (h : Independent settings) (hs : s ∈ settings) :
    Accepts settings s.name node ↔ ∃ value, s.Denotes value node := by
  constructor
  · rintro ⟨u, hu, hname, hvalue⟩
    obtain rfl := h.eq_of_name_eq hs hu hname
    exact hvalue
  · intro hvalue
    exact ⟨s, hs, rfl, hvalue⟩

end Independent

/-! ## Entries -/

def setWith (known : List String) : List (Setting α) → α → Key → Node → Except DecodeError α
  | [], _, key, _ => unknown key known
  | s :: rest, a, key, node =>
    if key.name = s.name then return s.put a (← s.decode node.place node)
    else setWith known rest a key node

theorem setWith_eq_ok_iff (h : Independent settings) :
    setWith known settings a key node = .ok a' ↔
      ∃ s ∈ settings, key.name = s.name ∧ ∃ value, s.Denotes value node ∧ s.put a value = a' := by
  induction settings with
  | nil => simp [setWith, unknown]
  | cons s rest ih =>
      rw [setWith, List.exists_mem_cons_iff]
      by_cases hname : key.name = s.name
      · have hrest : ¬∃ u ∈ rest, key.name = u.name ∧ ∃ value, u.Denotes value node ∧
            u.put a value = a' := by
          rintro ⟨u, hu, huname, -⟩
          exact h.name_ne hu (hname.symm.trans huname)
        rw [if_pos hname, or_iff_left hrest]
        simp [hname, bind_eq_ok_iff, s.decode_eq_ok_iff, pure, Except.pure]
      · rw [if_neg hname, ih h.tail]
        simp [hname]

theorem exists_setWith_iff (h : Independent settings) :
    (∃ a', setWith known settings a key node = .ok a') ↔ Accepts settings key.name node := by
  simp only [setWith_eq_ok_iff h, Accepts]
  constructor
  · rintro ⟨a', s, hs, hname, value, hvalue, -⟩
    exact ⟨s, hs, hname, value, hvalue⟩
  · rintro ⟨s, hs, hname, value, hvalue⟩
    exact ⟨_, s, hs, hname, value, hvalue, rfl⟩

/-- An entry sets the setting of its name and no other. -/
theorem given_of_setWith (h : Independent settings) (hs : s ∈ settings)
    (hset : setWith known settings a key node = .ok a') :
    Given s.Denotes (s.get a) (if key.name = s.name then some node else none) (s.get a') := by
  obtain ⟨u, hu, hname, value, hvalue, rfl⟩ := (setWith_eq_ok_iff h).1 hset
  by_cases hsame : key.name = s.name
  · obtain rfl : u = s := h.eq_of_name_eq hu hs (hname.symm.trans hsame)
    rw [if_pos hsame, u.get_put]
    exact hvalue
  · have hne : u.name ≠ s.name := fun heq => hsame (hname.trans heq)
    rw [if_neg hsame, h.get_put_of_ne u hu s hs hne]
    rfl

/-! ## Tables -/

/-- Whether a step succeeds does not depend on the steps before it. -/
theorem exists_foldlM_iff (h : Independent settings) (entries : List (Key × Node)) (a : α) :
    (∃ a', entries.foldlM (fun a e => setWith known settings a e.1 e.2) a = .ok a') ↔
      ∀ e ∈ entries, Accepts settings e.1.name e.2 := by
  induction entries generalizing a with
  | nil => exact ⟨fun _ => nofun, fun _ => ⟨a, rfl⟩⟩
  | cons first rest ih =>
      simp only [List.foldlM_cons, bind_eq_ok_iff, List.forall_mem_cons]
      rw [← exists_setWith_iff h]
      constructor
      · rintro ⟨a', next, hnext, hrest⟩
        exact ⟨⟨next, hnext⟩, (ih next).1 ⟨a', hrest⟩⟩
      · rintro ⟨⟨next, hnext⟩, hrest⟩
        obtain ⟨a', ha'⟩ := (ih next).2 hrest
        exact ⟨a', next, hnext, ha'⟩

/-- As names are distinct, a setting is touched by one step at most. -/
theorem given_of_foldlM (h : Independent settings) (hs : s ∈ settings)
    {entries : List (Key × Node)} (hentries : (entries.map fun e => e.1.name).Nodup)
    (hfold : entries.foldlM (fun a e => setWith known settings a e.1 e.2) a = .ok a') :
    Given s.Denotes (s.get a) ((entries.find? fun e => e.1.name = s.name).map Prod.snd)
      (s.get a') := by
  induction entries generalizing a with
  | nil =>
      cases hfold
      rfl
  | cons first rest ih =>
      rw [List.foldlM_cons, bind_eq_ok_iff] at hfold
      obtain ⟨next, hnext, hrest⟩ := hfold
      obtain ⟨hfirst, hdistinct⟩ := List.nodup_cons.1 hentries
      have hstep := given_of_setWith h hs hnext
      have hgiven := ih hdistinct hrest
      by_cases hname : first.1.name = s.name
      · -- no later entry has the name of this one, so the steps after it keep what it sets
        have habsent : rest.find? (fun e => e.1.name = s.name) = none := by
          rw [List.find?_eq_none]
          intro e he
          have hne : e.1.name ≠ first.1.name := fun heq => hfirst (List.mem_map.2 ⟨e, he, heq⟩)
          simpa [hname] using hne
        rw [if_pos hname] at hstep
        rw [habsent] at hgiven
        have hsame : s.get a' = s.get next := hgiven
        rw [List.find?_cons_of_pos (by simpa using hname), hsame]
        exact hstep
      · rw [if_neg hname] at hstep
        have hsame : s.get next = s.get a := hstep
        rw [List.find?_cons_of_neg (by simpa using hname), ← hsame]
        exact hgiven

theorem allGiven_of_foldlM (h : Independent settings) {t : Table Node} (ht : t.HasDistinctNames)
    (hfold : t.entries.foldlM (fun a e => setWith known settings a e.1 e.2) a = .ok a') :
    AllGiven settings a t.get? a' :=
  fun _ hs => given_of_foldlM h hs ht hfold

/-! ## Arrays -/

/-- Decodes the items from an index on for some settings, one item for each. -/
def itemsWith (default : α) (place : Stretch) (items : List Node) :
    List (Setting α) → Nat → α → Except DecodeError α
  | [], _, a => return a
  | s :: rest, i, a => do
    let value ← itemOr items i (s.get default) (s.decode place)
    itemsWith default place items rest (i + 1) (s.put a value)

variable {items : List Node} {i : Nat}

theorem itemOr_decode_eq_ok_iff {default value : s.Value} :
    itemOr items i default (s.decode place) = .ok value ↔
      Given s.Denotes default items[i]? value :=
  itemOr_eq_ok_iff fun _ _ => s.decode_eq_ok_iff

theorem Independent.getElem?_idxOf (h : Independent (s :: settings)) {u : Setting α}
    (hu : u ∈ settings) :
    items[i + ((s :: settings).map Setting.name).idxOf u.name]? =
      items[i + 1 + (settings.map Setting.name).idxOf u.name]? := by
  rw [List.map_cons, List.idxOf_cons_ne _ (h.name_ne hu), Nat.add_right_comm]
  rfl

theorem exists_itemsWith_iff (h : Independent settings) :
    (∃ a', itemsWith default place items settings i a = .ok a') ↔
      ∀ s ∈ settings, ∀ node ∈ items[i + (settings.map Setting.name).idxOf s.name]?,
        ∃ value, s.Denotes value node := by
  induction settings generalizing i a with
  | nil => exact ⟨fun _ => nofun, fun _ => ⟨a, rfl⟩⟩
  | cons s rest ih =>
      have hitem : (∃ value, itemOr items i (s.get default) (s.decode place) = .ok value) ↔
          ∀ node ∈ items[i]?, ∃ value, s.Denotes value node := by
        simp only [itemOr_decode_eq_ok_iff, exists_given_iff]
      have hrest (a : α) : (∃ a', itemsWith default place items rest (i + 1) a = .ok a') ↔
          ∀ u ∈ rest, ∀ node ∈ items[i + ((s :: rest).map Setting.name).idxOf u.name]?,
            ∃ value, u.Denotes value node := by
        rw [ih h.tail]
        exact forall₂_congr fun u hu => by rw [h.getElem?_idxOf hu]
      rw [List.forall_mem_cons, List.map_cons, List.idxOf_cons_self, Nat.add_zero, ← hitem]
      simp only [itemsWith, bind_eq_ok_iff]
      constructor
      · rintro ⟨a', value, hvalue, ha'⟩
        exact ⟨⟨value, hvalue⟩, (hrest _).1 ⟨a', ha'⟩⟩
      · rintro ⟨⟨value, hvalue⟩, hothers⟩
        obtain ⟨a', ha'⟩ := (hrest (s.put a value)).2 hothers
        exact ⟨a', value, hvalue, ha'⟩

theorem get_eq_of_itemsWith {u : Setting α}
    (hkept : ∀ s ∈ settings, ∀ a value, u.get (s.put a value) = u.get a)
    (h : itemsWith default place items settings i a = .ok a') : u.get a' = u.get a := by
  induction settings generalizing i a with
  | nil =>
      cases h
      rfl
  | cons s rest ih =>
      obtain ⟨value, -, hrest⟩ := bind_eq_ok_iff.1 h
      obtain ⟨hs, hothers⟩ := List.forall_mem_cons.1 hkept
      rw [ih hothers hrest, hs]

theorem allGiven_of_itemsWith (h : Independent settings)
    (hitems : itemsWith default place items settings i a = .ok a') :
    AllGiven settings default
      (fun name => items[i + (settings.map Setting.name).idxOf name]?) a' := by
  induction settings generalizing i a with
  | nil => exact nofun
  | cons s rest ih =>
      obtain ⟨value, hvalue, hrest⟩ := bind_eq_ok_iff.1 hitems
      refine List.forall_mem_cons.2 ⟨?_, fun u hu => ?_⟩
      · -- the settings behind `s` keep what has been put there
        have hkept : s.get a' = s.get (s.put a value) := by
          apply get_eq_of_itemsWith _ hrest
          intro u hu
          exact h.get_put_of_ne u (List.mem_cons_of_mem _ hu) s List.mem_cons_self
            (h.name_ne hu).symm
        rw [hkept, s.get_put]
        simpa using itemOr_decode_eq_ok_iff.1 hvalue
      · have hgiven := ih h.tail hrest u hu
        dsimp only at hgiven ⊢
        rw [h.getElem?_idxOf hu]
        exact hgiven

theorem forall_mem_zip_iff {names : List String} (hnames : names.Nodup) {items : List Node}
    {fits : String → Node → Prop} :
    (∀ p ∈ names.zip items, fits p.1 p.2) ↔
      ∀ name ∈ names, ∀ node ∈ items[names.idxOf name]?, fits name node := by
  constructor
  · intro h name hname node hnode
    refine h (name, node) (List.mem_iff_getElem?.2 ⟨names.idxOf name, ?_⟩)
    exact List.getElem?_zip_eq_some.2 ⟨List.getElem?_idxOf hname, hnode⟩
  · rintro h ⟨name, node⟩ hp
    obtain ⟨i, hi⟩ := List.mem_iff_getElem?.1 hp
    obtain ⟨hname, hnode⟩ := List.getElem?_zip_eq_some.1 hi
    obtain ⟨hlt, rfl⟩ := List.getElem?_eq_some_iff.1 hname
    refine h _ (List.getElem_mem hlt) node ?_
    rw [hnames.idxOf_getElem]
    exact hnode

/-! ## Sections -/

def setting? (names : List String) (name : String) : Node → Option Node
  | .table content => content.get? name
  | .array _ _ items => items[names.idxOf name]?
  | .scalar .. => none

/-- The form of a section: a table in which every entry fits its name, or an array that begins with
items that fit the names of all settings, as far as it goes. -/
def IsSection (names : List String) (fits : String → Node → Prop) : Node → Prop
  | .table content => ∀ e ∈ content.entries, fits e.1.name e.2
  | .array _ _ items => ∀ p ∈ names.zip items, fits p.1 p.2
  | .scalar .. => False

def decodeWith (what : String) (settings : List (Setting α)) (default : α) :
    Node → Except DecodeError α :=
  let names := settings.map Setting.name
  decodeSection what names default (setWith names settings) fun place items =>
    itemsWith default place items settings 0 default

variable {what : String}

theorem decodeWith_scalar_ne_ok (place : Stretch) (value : Scalar) :
    decodeWith what settings default (.scalar place value) ≠ .ok a := by
  intro h
  cases value with
  | datetime => cases h
  | text => exact expected_ne_ok _ _ _ h
  | integer => exact expected_ne_ok _ _ _ h
  | real => exact expected_ne_ok _ _ _ h
  | boolean => exact expected_ne_ok _ _ _ h
  | valueless => exact expected_ne_ok _ _ _ h

/-- A node decodes exactly if it has the form of a section. -/
theorem exists_decodeWith_iff (h : Independent settings) :
    (∃ a, decodeWith what settings default node = .ok a) ↔
      IsSection (settings.map Setting.name) (Accepts settings) node := by
  cases node with
  | scalar place value =>
      constructor
      · rintro ⟨a, ha⟩
        exact decodeWith_scalar_ne_ok place value ha
      · exact False.elim
  | array place ofTables items =>
      refine (exists_itemsWith_iff h).trans ?_
      rw [IsSection, forall_mem_zip_iff h.nodup, List.forall_mem_map]
      simp only [Nat.zero_add]
      exact forall₂_congr fun s hs => forall₂_congr fun node _ => (h.accepts_iff hs).symm
  | table content => exact exists_foldlM_iff h content.entries default

/-- What a section decodes to has each setting as the section has it. -/
theorem allGiven_of_decodeWith (h : Independent settings)
    (hnode : ∀ content, node = .table content → content.HasDistinctNames)
    (hdecode : decodeWith what settings default node = .ok a) :
    AllGiven settings default (fun name => setting? (settings.map Setting.name) name node) a := by
  cases node with
  | scalar place value => exact absurd hdecode (decodeWith_scalar_ne_ok place value)
  | array place ofTables items =>
      have hgiven := allGiven_of_itemsWith h hdecode
      simp only [Nat.zero_add] at hgiven
      exact hgiven
  | table content => exact allGiven_of_foldlM h (hnode content rfl) hdecode

end StubNames.Config
