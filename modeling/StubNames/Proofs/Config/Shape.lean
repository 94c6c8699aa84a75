import Mathlib.Control.Monad.Basic
import StubNames.Proofs.Config.Section
import StubNames.Proofs.Config.Validation
/-!
# The shape of a configuration

A document decodes exactly if it has the right shape, and what it decodes to follows the document:
each setting is what is written for it, and its default if nothing is.  The document is a record of
two sections, and each section a record of three settings.
-/

namespace StubNames.Config

open Toml (Node Table)

namespace Reserved

/-! ## Reserved names -/

def Fits (name : String) (node : Node) : Prop :=
  (name = "extend" ∧ ∃ b, IsBoolean b node) ∨
    ((name = "fields" ∨ name = "types") ∧ ∃ ss, IsTexts ss node)

def settings : List (Setting Reserved) :=
  [⟨"extend", Bool, fun _ => decodeBoolean, IsBoolean, decodeBoolean_eq_ok_iff, extend,
      fun r extend => { r with extend }, fun _ _ => rfl⟩,
    ⟨"fields", List String, fun _ => decodeTexts, IsTexts, decodeTexts_eq_ok_iff, fields,
      fun r fields => { r with fields }, fun _ _ => rfl⟩,
    ⟨"types", List String, fun _ => decodeTexts, IsTexts, decodeTexts_eq_ok_iff, types,
      fun r types => { r with types }, fun _ _ => rfl⟩]

theorem independent_settings : Independent settings where
  nodup := by decide
  get_put_of_ne := by simp [settings]

theorem decode_eq_decodeWith : decode = decodeWith "struct ReservedConfig" settings {} :=
  rfl

theorem accepts_settings : Accepts settings = Fits := by
  funext name node
  rw [Fits, or_and_right]
  simp [Accepts, settings]

variable {r : Reserved} {node : Node}

theorem allGiven_settings_iff {default : Reserved} {written : String → Option Node} :
    AllGiven settings default written r ↔
      Given IsBoolean default.extend (written "extend") r.extend ∧
        Given IsTexts default.fields (written "fields") r.fields ∧
          Given IsTexts default.types (written "types") r.types := by
  simp [AllGiven, settings]

theorem exists_decode_iff : (∃ r, decode node = .ok r) ↔ IsSection names Fits node := by
  rw [decode_eq_decodeWith, ← accepts_settings]
  exact exists_decodeWith_iff independent_settings

end Reserved

namespace Suffixes

/-! ## Suffixes -/

/-- Whether a node is a text that may be appended to an identifier. -/
def IsWord (node : Node) : Prop :=
  ∃ s, IsText s node ∧ ∀ c ∈ s.toList, isWordChar c = true

def Fits (name : String) (node : Node) : Prop :=
  (name = "server" ∨ name = "client" ∨ name = "escape") ∧ IsWord node

def Spells (x : Suffix) (node : Node) : Prop :=
  IsText x.text node

theorem exists_spells_iff {node : Node} : (∃ x, Spells x node) ↔ IsWord node :=
  ⟨fun ⟨x, hx⟩ => ⟨x.text, hx, x.isWord⟩, fun ⟨s, hs, hword⟩ => ⟨⟨s, hword⟩, hs⟩⟩

def settings : List (Setting Suffixes) :=
  [⟨"server", Suffix, decodeSuffix, Spells, decodeSuffix_eq_ok_iff, server,
      fun s server => { s with server }, fun _ _ => rfl⟩,
    ⟨"client", Suffix, decodeSuffix, Spells, decodeSuffix_eq_ok_iff, client,
      fun s client => { s with client }, fun _ _ => rfl⟩,
    ⟨"escape", Suffix, decodeSuffix, Spells, decodeSuffix_eq_ok_iff, escape,
      fun s escape => { s with escape }, fun _ _ => rfl⟩]

theorem independent_settings : Independent settings where
  nodup := by decide
  get_put_of_ne := by simp [settings]

theorem decode_eq_decodeWith : decode = decodeWith "struct SuffixConfig" settings {} :=
  rfl

theorem accepts_settings : Accepts settings = Fits := by
  funext name node
  rw [Fits, or_and_right, or_and_right, ← exists_spells_iff]
  simp [Accepts, settings]

variable {s : Suffixes} {node : Node}

theorem allGiven_settings_iff {default : Suffixes} {written : String → Option Node} :
    AllGiven settings default written s ↔
      Given Spells default.server (written "server") s.server ∧
        Given Spells default.client (written "client") s.client ∧
          Given Spells default.escape (written "escape") s.escape := by
  simp [AllGiven, settings]

theorem exists_decode_iff : (∃ s, decode node = .ok s) ↔ IsSection names Fits node := by
  rw [decode_eq_decodeWith, ← accepts_settings]
  exact exists_decodeWith_iff independent_settings

end Suffixes

/-! ## Documents -/

def Fits (name : String) (node : Node) : Prop :=
  (name = "reserved" ∧ IsSection Reserved.names Reserved.Fits node) ∨
    (name = "suffixes" ∧ IsSection Suffixes.names Suffixes.Fits node)

def HasShape (t : Table Node) : Prop :=
  ∀ e ∈ t.entries, Fits e.1.name e.2

/-- No name stands twice in the document, or twice in a table under one of its names. -/
structure RepeatsNoKey (t : Table Node) : Prop where
  hasDistinctNames : t.HasDistinctNames
  of_mem : ∀ e ∈ t.entries, ∀ content, e.2 = .table content → content.HasDistinctNames

/-- The node that a document has for a setting, if it has the section and this one the setting. -/
def written? (t : Table Node) (heading : String) (names : List String) (name : String) :
    Option Node :=
  (t.get? heading).bind (setting? names name)

/-- Each setting is what the document has for it, or its default. -/
structure Follows (c : Config) (t : Table Node) : Prop where
  extend : Given IsBoolean true (written? t "reserved" Reserved.names "extend") c.reserved.extend
  fields : Given IsTexts [] (written? t "reserved" Reserved.names "fields") c.reserved.fields
  types : Given IsTexts [] (written? t "reserved" Reserved.names "types") c.reserved.types
  server : Given IsText "Server" (written? t "suffixes" Suffixes.names "server")
    c.suffixes.server.text
  client : Given IsText "Client" (written? t "suffixes" Suffixes.names "client")
    c.suffixes.client.text
  escape : Given IsText "_" (written? t "suffixes" Suffixes.names "escape")
    c.suffixes.escape.text

def settings : List (Setting Config) :=
  [⟨"reserved", Reserved, fun _ => Reserved.decode, fun r node => Reserved.decode node = .ok r,
      Iff.rfl, reserved, fun c reserved => { c with reserved }, fun _ _ => rfl⟩,
    ⟨"suffixes", Suffixes, fun _ => Suffixes.decode, fun s node => Suffixes.decode node = .ok s,
      Iff.rfl, suffixes, fun c suffixes => { c with suffixes }, fun _ _ => rfl⟩]

theorem independent_settings : Independent settings where
  nodup := by decide
  get_put_of_ne := by simp [settings]

theorem accepts_settings : Accepts settings = Fits := by
  funext name node
  rw [Fits, ← Reserved.exists_decode_iff, ← Suffixes.exists_decode_iff]
  simp [Accepts, settings]

variable {c : Config} {node : Node} {t : Table Node}

theorem decode_eq_foldlM :
    decode t = t.entries.foldlM (fun c e => setWith names settings c e.1 e.2) {} :=
  rfl

theorem exists_decode_iff : (∃ c, decode t = .ok c) ↔ HasShape t := by
  rw [HasShape, decode_eq_foldlM, ← accepts_settings]
  exact exists_foldlM_iff independent_settings t.entries {}

theorem repeatsNoKey_of_isSorted (ht : t.IsSorted) : RepeatsNoKey t where
  hasDistinctNames := Table.hasDistinctNames_of_increasing ht.1
  of_mem e he content hcontent := by
    have hsorted : content.IsSorted := Toml.Node.isSorted_table_iff.1 (hcontent ▸ ht.2 e he)
    exact Table.hasDistinctNames_of_increasing hsorted.1

theorem RepeatsNoKey.of_get? (ht : RepeatsNoKey t) {heading : String}
    (h : t.get? heading = some node) :
    ∀ content, node = .table content → content.HasDistinctNames := by
  obtain ⟨key, hmem⟩ := Table.exists_mem_of_get? h
  exact ht.of_mem _ hmem

/-- What a document gives for a section gives the settings of the section. -/
theorem allGiven_written {α : Type} {settings : List (Setting α)} {what heading : String}
    {default a : α} (ht : RepeatsNoKey t) (hsettings : Independent settings)
    (h : Given (fun a node => decodeWith what settings default node = .ok a) default
      (t.get? heading) a) :
    AllGiven settings default (written? t heading (settings.map Setting.name)) a := by
  unfold written?
  cases hget : t.get? heading with
  | none =>
      rw [hget] at h
      have hsame : a = default := h
      intro s _
      exact congrArg s.get hsame
  | some node =>
      rw [hget] at h
      exact allGiven_of_decodeWith hsettings (ht.of_get? hget) h

theorem allGiven_reserved (ht : RepeatsNoKey t) (h : decode t = .ok c) :
    AllGiven Reserved.settings {} (written? t "reserved" Reserved.names) c.reserved := by
  have hgiven := allGiven_of_foldlM independent_settings ht.hasDistinctNames h
  exact allGiven_written ht Reserved.independent_settings (hgiven _ List.mem_cons_self)

theorem allGiven_suffixes (ht : RepeatsNoKey t) (h : decode t = .ok c) :
    AllGiven Suffixes.settings {} (written? t "suffixes" Suffixes.names) c.suffixes := by
  have hgiven := allGiven_of_foldlM independent_settings ht.hasDistinctNames h
  exact allGiven_written ht Suffixes.independent_settings
    (hgiven _ (List.mem_cons_of_mem _ List.mem_cons_self))

theorem given_text {default x : Suffix} {written : Option Node}
    (h : Given Suffixes.Spells default written x) : Given IsText default.text written x.text := by
  cases written with
  | none => exact congrArg Suffix.text h
  | some node => exact h

theorem follows_of_decode (ht : RepeatsNoKey t) (h : decode t = .ok c) : c.Follows t := by
  obtain ⟨hextend, hfields, htypes⟩ := Reserved.allGiven_settings_iff.1 (allGiven_reserved ht h)
  obtain ⟨hserver, hclient, hescape⟩ := Suffixes.allGiven_settings_iff.1 (allGiven_suffixes ht h)
  exact ⟨hextend, hfields, htypes, given_text hserver, given_text hclient, given_text hescape⟩

/-- A document decodes exactly if it has the right shape, and where it repeats no key, the
configuration follows it.  Whatever reads a text as the document, the text fails to load as unread
exactly if the document has another shape.  What `Toml.document?` reads repeats no key. -/
theorem decode_exact (t : Table Node) :
    ((∃ c, decode t = .ok c) ↔ HasShape t) ∧
    (RepeatsNoKey t → ∀ c, decode t = .ok c → c.Follows t) ∧
    (∀ (read : Reader) (text : String), read text = some t → ∀ filename,
      (∃ e, loadWith read filename text = .error e ∧ Unread filename e) ↔ ¬HasShape t) ∧
    ∀ text, Toml.document? text = some t → RepeatsNoKey t := by
  refine ⟨exists_decode_iff, fun ht c => follows_of_decode ht, fun read text h filename => ?_,
    fun text h => repeatsNoKey_of_isSorted (Toml.isSorted_of_document? h)⟩
  rw [load_fails_unread_iff, ← exists_decode_iff, not_exists]
  exact forall_congr' fun c => not_congr (reads_iff_of_read h)

/-- One section as an array that ends early, one as a table in another order than its settings are
declared in. -/
def serviceConfig : Config where
  reserved := { extend := false, types := ["Box", "Box"] }
  suffixes := { server := ⟨"Service", List.all_eq_true.1 rfl⟩ }

theorem decode_exact_service :
    let text :=
      "suffixes = [\"Service\"]\n[reserved]\ntypes = [\"Box\", \"Box\"]\nextend = false\n"
    ∃ t, Toml.document? text = some t ∧ HasShape t ∧ serviceConfig.Follows t := by
  intro text
  have hdecodes : (Toml.document? text).map decode = some (.ok serviceConfig) := by
    decide +kernel
  obtain ⟨t, ht, hdecode⟩ := Option.map_eq_some_iff.1 hdecodes
  obtain ⟨hshape, hfollows, -, hkeys⟩ := decode_exact t
  exact ⟨t, ht, hshape.1 ⟨_, hdecode⟩, hfollows (hkeys text ht) _ hdecode⟩

end StubNames.Config
