import Mathlib.Data.List.Forall2
import StubNames.Naming.Table
import StubNames.Proofs.Except
import StubNames.Proofs.Naming.Canonical
import StubNames.Proofs.Schema.Catalogue
/-!
# Tables of names

A table is made in one pass over the index.  Full names are distinct, so no entry is ever
overwritten, and the names that only some entities have always exist: the pass ends with an entry
for each entity, or with the error of the first entity that has no canonical name.
-/

namespace StubNames

open Schema (Builder Declaration Entity Graph Handle Kind)

namespace Resolver

variable {r : Resolver} {h : Handle} {e : Entity}

def failure? (r : Resolver) (h : Handle) : Option NamingError :=
  match r.name h with
  | .ok _ => none
  | .error x => some x

theorem failure?_eq_some_iff {x : NamingError} : r.failure? h = some x ↔ r.name h = .error x := by
  unfold failure?
  cases r.name h <;> simp

theorem failure?_eq_none_iff : r.failure? h = none ↔ ∃ n, r.name h = .ok n := by
  unfold failure?
  cases r.name h <;> simp

theorem exists_oneofOption (hg : r.graph.WellFormed) (he : r.graph.get? h = some e)
    {group : Handle} (hkind : e.kind = .field (some group)) : ∃ n, r.oneofOption h = .ok n := by
  obtain ⟨p, s, -, -, -, hoption⟩ := oneofOption_of_member hg he hkind
  exact ⟨_, hoption⟩

theorem exists_clientName (he : r.graph.get? h = some e) (hkind : e.kind = .service) :
    ∃ n, r.clientName h = .ok n :=
  ⟨_, serviceName_of_service he hkind _ _⟩

end Resolver

namespace NameTable

def Lists (name : Handle → Except NamingError Identifier) (p : Handle × Entity)
    (entry : String × Identifier) : Prop :=
  entry.1 = p.2.fullName ∧ name p.1 = .ok entry.2

/-- The entries of a table are those of some entities, one for each and in the same order. -/
structure Tabulates (t : NameTable) (r : Resolver) (ps : List (Handle × Entity)) : Prop where
  names : List.Forall₂ (Lists r.name) ps t.names.entries
  oneofOptions : List.Forall₂ (Lists r.oneofOption) (ps.filter fun p => p.2.oneof.isSome)
    t.oneofOptions.entries
  clients : List.Forall₂ (Lists r.clientName) (ps.filter fun p => p.2.kind == .service)
    t.clients.entries

/-! ## Entries -/

section Entries

variable {name : Handle → Except NamingError Identifier} {ps : List (Handle × Entity)}
  {m : Ordered.Map String Identifier} {h : Handle} {e : Entity} {n : Identifier}

theorem keys_eq_of_lists (hm : List.Forall₂ (Lists name) ps m.entries) :
    m.keys = ps.map fun p => p.2.fullName := by
  unfold Ordered.Map.keys
  generalize m.entries = entries at hm ⊢
  induction hm with
  | nil => rfl
  | cons hentry _ ih => rw [List.map_cons, List.map_cons, ih, hentry.1]

theorem lists_insert (hm : List.Forall₂ (Lists name) ps m.entries) (hname : name h = .ok n)
    (hfree : e.fullName ∉ ps.map fun p => p.2.fullName) :
    List.Forall₂ (Lists name) (ps ++ [(h, e)]) (m.insert e.fullName n).entries := by
  rw [← keys_eq_of_lists hm] at hfree
  rw [Ordered.Map.entries_insert_of_notMem hfree]
  exact List.rel_append hm (.cons ⟨rfl, hname⟩ .nil)

theorem get?_of_lists (hm : List.Forall₂ (Lists name) ps m.entries) (hmem : (h, e) ∈ ps) :
    ∃ n, name h = .ok n ∧ m.get? e.fullName = some n := by
  simp only [Ordered.Map.get?_eq_some_iff]
  generalize m.entries = entries at hm ⊢
  induction hm with
  | nil => cases hmem
  | @cons p entry ps entries hentry _ ih =>
      rcases List.mem_cons.1 hmem with rfl | hmem
      · exact ⟨entry.2, hentry.2, by rw [← hentry.1]; exact List.mem_cons_self⟩
      · obtain ⟨n, hname, hrest⟩ := ih hmem
        exact ⟨n, hname, List.mem_cons_of_mem _ hrest⟩

theorem exists_of_mem_lists (hm : List.Forall₂ (Lists name) ps m.entries)
    {entry : String × Identifier} (hentry : entry ∈ m.entries) :
    ∃ p ∈ ps, Lists name p entry := by
  generalize m.entries = entries at hm hentry
  induction hm with
  | nil => cases hentry
  | @cons p first ps entries hfirst _ ih =>
      rcases List.mem_cons.1 hentry with rfl | hentry
      · exact ⟨p, List.mem_cons_self, hfirst⟩
      · obtain ⟨q, hq, hlists⟩ := ih hentry
        exact ⟨q, List.mem_cons_of_mem _ hq, hlists⟩

theorem isEmpty_iff_of_lists {keep : Handle × Entity → Bool}
    (hm : List.Forall₂ (Lists name) (ps.filter keep) m.entries) :
    m.isEmpty = true ↔ ∀ p ∈ ps, keep p = false := by
  rw [Ordered.Map.isEmpty, List.isEmpty_iff_length_eq_zero, ← hm.length_eq,
    List.length_eq_zero_iff, List.filter_eq_nil_iff]
  simp

end Entries

/-! ## One entity -/

section Record

variable {r : Resolver} {t : NameTable} {ps : List (Handle × Entity)} {h : Handle} {e : Entity}
  {n : Identifier}

theorem record_of_member {group : Handle} (hkind : e.kind = .field (some group))
    (hoption : r.oneofOption h = .ok n) :
    record r t h e = (r.name h).map fun own =>
      { t with oneofOptions := t.oneofOptions.insert e.fullName n
               names := t.names.insert e.fullName own } := by
  rw [record, hkind, hoption]
  cases r.name h <;> rfl

theorem record_of_service (hkind : e.kind = .service) (hclient : r.clientName h = .ok n) :
    record r t h e = (r.name h).map fun own =>
      { t with clients := t.clients.insert e.fullName n
               names := t.names.insert e.fullName own } := by
  rw [record, hkind, hclient]
  cases r.name h <;> rfl

theorem record_of_plain (hmember : e.oneof = none) (hservice : e.kind ≠ .service) :
    record r t h e = (r.name h).map fun own =>
      { t with names := t.names.insert e.fullName own } := by
  unfold record
  split
  · next group hkind =>
      rw [Entity.oneof, hkind] at hmember
      cases hmember
  · next hkind => exact absurd hkind hservice
  · cases r.name h <;> rfl

theorem notMem_fullNames_filter {keep : Handle × Entity → Bool} {s : String}
    (hfree : s ∉ ps.map fun p => p.2.fullName) :
    s ∉ (ps.filter keep).map fun p => p.2.fullName :=
  fun hmem => hfree (List.map_subset _ (List.filter_subset_self _) hmem)

theorem filter_concat_of_pos {keep : Handle × Entity → Bool} (hkeep : keep (h, e) = true) :
    (ps ++ [(h, e)]).filter keep = ps.filter keep ++ [(h, e)] := by
  rw [List.filter_append, List.filter_cons_of_pos hkeep, List.filter_nil]

theorem filter_concat_of_neg {keep : Handle × Entity → Bool} (hkeep : ¬keep (h, e) = true) :
    (ps ++ [(h, e)]).filter keep = ps.filter keep := by
  rw [List.filter_append, List.filter_cons_of_neg hkeep, List.filter_nil, List.append_nil]

/-- What is asked for before the canonical name never fails, so the entity is recorded if it has a
name and its error is that of the name otherwise. -/
theorem Tabulates.record_eq_map (ht : t.Tabulates r ps) (hg : r.graph.WellFormed)
    (he : r.graph.get? h = some e) (hfree : e.fullName ∉ ps.map fun p => p.2.fullName) :
    ∃ next, record r t h e = (r.name h).map next ∧
      ∀ n, r.name h = .ok n → (next n).Tabulates r (ps ++ [(h, e)]) := by
  have hnames : ∀ n, r.name h = .ok n →
      List.Forall₂ (Lists r.name) (ps ++ [(h, e)]) (t.names.insert e.fullName n).entries :=
    fun n hname => lists_insert ht.names hname hfree
  by_cases hmember : e.oneof = none
  · by_cases hservice : e.kind = .service
    · obtain ⟨client, hclient⟩ := Resolver.exists_clientName he hservice
      refine ⟨_, record_of_service hservice hclient, fun n hname => ⟨hnames n hname, ?_, ?_⟩⟩
      · rw [filter_concat_of_neg (by simp [hmember])]
        exact ht.oneofOptions
      · rw [filter_concat_of_pos (by simp [hservice])]
        exact lists_insert ht.clients hclient (notMem_fullNames_filter hfree)
    · refine ⟨_, record_of_plain hmember hservice, fun n hname => ⟨hnames n hname, ?_, ?_⟩⟩
      · rw [filter_concat_of_neg (by simp [hmember])]
        exact ht.oneofOptions
      · rw [filter_concat_of_neg (by simp [hservice])]
        exact ht.clients
  · obtain ⟨group, hkind⟩ := Schema.Entity.exists_kind_of_oneof_ne_none hmember
    obtain ⟨option, hoption⟩ := Resolver.exists_oneofOption hg he hkind
    refine ⟨_, record_of_member hkind hoption, fun n hname => ⟨hnames n hname, ?_, ?_⟩⟩
    · rw [filter_concat_of_pos (by simpa [Option.isSome_iff_ne_none] using hmember)]
      exact lists_insert ht.oneofOptions hoption (notMem_fullNames_filter hfree)
    · rw [filter_concat_of_neg (by simp [hkind])]
      exact ht.clients

end Record

/-! ## All entities -/

section Resolve

variable {r : Resolver} {t : NameTable} {ps qs : List (Handle × Entity)}

theorem tabulates_empty (r : Resolver) : ({} : NameTable).Tabulates r [] :=
  ⟨.nil, .nil, .nil⟩

theorem Tabulates.foldlM_eq (ht : t.Tabulates r ps) (hg : r.graph.WellFormed)
    (hhere : ∀ p ∈ qs, r.graph.get? p.1 = some p.2)
    (hnodup : ((ps ++ qs).map fun p => p.2.fullName).Nodup) :
    match qs.findSome? fun p => r.failure? p.1 with
    | some x => qs.foldlM (fun t p => record r t p.1 p.2) t = .error x
    | none => ∃ t', qs.foldlM (fun t p => record r t p.1 p.2) t = .ok t' ∧
        t'.Tabulates r (ps ++ qs) := by
  induction qs generalizing ps t with
  | nil => exact ⟨t, rfl, by rwa [List.append_nil]⟩
  | cons q qs ih =>
      obtain ⟨h, e⟩ := q
      have he : r.graph.get? h = some e := hhere (h, e) List.mem_cons_self
      have hfree : e.fullName ∉ ps.map fun p => p.2.fullName := by
        rw [List.map_append, List.nodup_append] at hnodup
        exact fun hmem => hnodup.2.2 _ hmem _ List.mem_cons_self rfl
      obtain ⟨next, hrecord, hnext⟩ := ht.record_eq_map hg he hfree
      rw [List.findSome?_cons, List.foldlM_cons, hrecord]
      cases hname : r.name h with
      | error x =>
          rw [Resolver.failure?_eq_some_iff.2 hname]
          rfl
      | ok n =>
          have hrest := ih (hnext n hname) (fun p hp => hhere p (List.mem_cons_of_mem _ hp))
            (by rwa [List.append_assoc])
          rw [Resolver.failure?_eq_none_iff.2 ⟨n, hname⟩]
          rwa [List.append_assoc] at hrest

end Resolve

/-! ## The written table -/

section Parts

variable {t : NameTable} {r : Resolver}

theorem oneofOptions_notMem_parts_iff :
    "oneof_options" ∉ t.parts.map Prod.fst ↔ t.oneofOptions.isEmpty = true := by
  by_cases hoptions : t.oneofOptions.isEmpty = true <;>
    by_cases hclients : t.clients.isEmpty = true <;> simp [parts, hoptions, hclients]

theorem clients_notMem_parts_iff :
    "clients" ∉ t.parts.map Prod.fst ↔ t.clients.isEmpty = true := by
  by_cases hoptions : t.oneofOptions.isEmpty = true <;>
    by_cases hclients : t.clients.isEmpty = true <;> simp [parts, hoptions, hclients]

structure Covers (t : NameTable) (r : Resolver) : Prop where
  tabulates : t.Tabulates r r.graph.declared
  size_eq : t.size = r.graph.size
  get?_eq : ∀ h e, r.graph.get? h = some e →
    ∃ n, r.name h = .ok n ∧ t.get? e.fullName = some n
  oneofOptions_absent_iff : "oneof_options" ∉ t.parts.map Prod.fst ↔
    ∀ h e, r.graph.get? h = some e → e.oneof = none
  clients_absent_iff : "clients" ∉ t.parts.map Prod.fst ↔
    ∀ h e, r.graph.get? h = some e → e.kind ≠ .service

theorem Tabulates.covers (ht : t.Tabulates r r.graph.declared) : t.Covers r where
  tabulates := ht
  size_eq := by
    rw [NameTable.size, Ordered.Map.size, ← ht.names.length_eq, Graph.declared, List.length_zip,
      Graph.length_handles, Nat.min_self, Graph.size]
  get?_eq _ _ he := get?_of_lists ht.names (Graph.mem_declared_iff.2 he)
  oneofOptions_absent_iff := by
    rw [oneofOptions_notMem_parts_iff, isEmpty_iff_of_lists ht.oneofOptions]
    simp [Graph.mem_declared_iff]
  clients_absent_iff := by
    rw [clients_notMem_parts_iff, isEmpty_iff_of_lists ht.clients]
    simp [Graph.mem_declared_iff]

end Parts

/-- One pass over a graph that is well formed and indexed. -/
theorem resolve_cases {r : Resolver} (hg : r.graph.WellFormed) (hindex : r.graph.Indexed) :
    match r.graph.declared.findSome? fun p => r.failure? p.1 with
    | some x => resolve r = .error x
    | none => ∃ t, resolve r = .ok t ∧ t.Covers r := by
  have hhere : ∀ p ∈ r.graph.declared, r.graph.get? p.1 = some p.2 :=
    fun p hp => Graph.mem_declared_iff.1 hp
  have hnodup : (([] ++ r.graph.declared).map fun p : Handle × Entity => p.2.fullName).Nodup := by
    rw [List.nil_append, Graph.map_fullName_declared]
    exact hindex.nodup_fullNames
  have hrun := (tabulates_empty r).foldlM_eq hg hhere hnodup
  rw [resolve, hindex.toList_eq_declared]
  cases hfailure : r.graph.declared.findSome? fun p => r.failure? p.1 with
  | some x =>
      simp only [hfailure] at hrun
      exact hrun
  | none =>
      simp only [hfailure] at hrun
      obtain ⟨t, hresolve, ht⟩ := hrun
      exact ⟨t, hresolve, Tabulates.covers ht⟩

theorem findSome?_failure?_eq_none_iff {r : Resolver} :
    r.graph.declared.findSome? (fun p => r.failure? p.1) = none ↔
      ∀ h e, r.graph.get? h = some e → ∃ n, r.name h = .ok n := by
  rw [List.findSome?_eq_none_iff]
  simp [Graph.mem_declared_iff, Resolver.failure?_eq_none_iff]

theorem exists_resolve_iff {r : Resolver} (hg : r.graph.WellFormed) (hindex : r.graph.Indexed) :
    (∃ t, resolve r = .ok t) ↔ ∀ h e, r.graph.get? h = some e → ∃ n, r.name h = .ok n := by
  have hcases := resolve_cases hg hindex
  rw [← findSome?_failure?_eq_none_iff]
  cases hfailure : r.graph.declared.findSome? fun p => r.failure? p.1 with
  | some x =>
      simp only [hfailure] at hcases
      rw [hcases]
      simp
  | none =>
      simp only [hfailure] at hcases
      obtain ⟨t, hresolve, -⟩ := hcases
      exact iff_of_true ⟨t, hresolve⟩ rfl

theorem tabulates_of_resolve {r : Resolver} (hg : r.graph.WellFormed) (hindex : r.graph.Indexed)
    {t : NameTable} (ht : resolve r = .ok t) : t.Tabulates r r.graph.declared := by
  have hcases := resolve_cases hg hindex
  cases hfailure : r.graph.declared.findSome? fun p => r.failure? p.1 with
  | some x =>
      simp only [hfailure] at hcases
      rw [hcases] at ht
      cases ht
  | none =>
      simp only [hfailure] at hcases
      obtain ⟨t', hresolve, hcovers⟩ := hcases
      rw [hresolve, Except.ok.injEq] at ht
      exact ht ▸ hcovers.tabulates

/-- The table of a graph fails with the error of the first entity, in the order of declaration,
that has no canonical name.  If there is none, it covers the graph.  The names that only oneof
members and services have are always there, so they never are the reason. -/
theorem resolve_exact (number : Nat) (ds : List Declaration) (convention : Convention) :
    let r : Resolver := ⟨((Builder.start number).run ds).build, convention⟩
    (∀ x, resolve r = .error x ↔
      r.graph.declared.findSome? (fun p => r.failure? p.1) = some x) ∧
    ((∃ t, resolve r = .ok t) ↔ ∀ h e, r.graph.get? h = some e → ∃ n, r.name h = .ok n) ∧
    (∀ t, resolve r = .ok t → t.Covers r) ∧
    ∀ h e, r.graph.get? h = some e →
      (e.oneof ≠ none → ∃ n, r.oneofOption h = .ok n) ∧
      (e.kind = .service → ∃ n, r.clientName h = .ok n) := by
  intro r
  have hvalid := Builder.valid_run_start number ds
  have hg : r.graph.WellFormed := hvalid.wellFormed
  have hcases := resolve_cases hg hvalid.indexed
  have hsecondary : ∀ h e, r.graph.get? h = some e →
      (e.oneof ≠ none → ∃ n, r.oneofOption h = .ok n) ∧
      (e.kind = .service → ∃ n, r.clientName h = .ok n) := by
    intro h e he
    refine ⟨fun hmember => ?_, Resolver.exists_clientName he⟩
    obtain ⟨group, hkind⟩ := Schema.Entity.exists_kind_of_oneof_ne_none hmember
    exact Resolver.exists_oneofOption hg he hkind
  rw [← findSome?_failure?_eq_none_iff]
  cases hfailure : r.graph.declared.findSome? fun p => r.failure? p.1 with
  | some x =>
      simp only [hfailure] at hcases
      rw [hcases]
      exact ⟨by simp, by simp, by simp, hsecondary⟩
  | none =>
      simp only [hfailure] at hcases
      obtain ⟨t, hresolve, ht⟩ := hcases
      rw [hresolve]
      refine ⟨by simp, by simp, ?_, hsecondary⟩
      rintro _ ⟨rfl⟩
      exact ht

def chatDeclarations : List Declaration :=
  [.package "chat", .file ⟨1, 0⟩ "chat.proto", .member .message ⟨1, 1⟩ "event",
    .member .oneof ⟨1, 2⟩ "body", .oneofField ⟨1, 3⟩ "text", .member .service ⟨1, 1⟩ "chat_room",
    .member .method ⟨1, 5⟩ "join"]

def unnamedDeclarations : List Declaration :=
  [.package "acme", .file ⟨1, 0⟩ "acme.proto", .member .enumeration ⟨1, 1⟩ "status",
    .member .enumValue ⟨1, 2⟩ "OK", .member .enumValue ⟨1, 2⟩ "not-ok",
    .member .enumValue ⟨1, 2⟩ "2nd"]

theorem resolve_exact_chat :
    let r : Resolver := ⟨((Builder.start 1).run chatDeclarations).build, .go⟩
    let r' : Resolver := ⟨((Builder.start 1).run unnamedDeclarations).build, .go⟩
    (∃ t, resolve r = .ok t ∧ t.size = 7 ∧
      t.get? ".chat.chat_room" = some ⟨"ChatRoomServer"⟩ ∧
      "oneof_options" ∈ t.parts.map Prod.fst ∧ "clients" ∈ t.parts.map Prod.fst) ∧
    resolve r' = .error (.invalidIdentifier "not-ok" (.invalidChar '-' 3)) := by
  intro r r'
  constructor
  · have hmember : r.graph.get? ⟨1, 4⟩ = some ⟨.field (some ⟨1, 3⟩), "text", ".chat.event.text",
        some ⟨1, 2⟩, some ⟨1, 0⟩, []⟩ := by
      decide +kernel
    have hservice : r.graph.get? ⟨1, 5⟩ = some ⟨.service, "chat_room", ".chat.chat_room",
        some ⟨1, 1⟩, some ⟨1, 0⟩, [⟨1, 6⟩]⟩ := by
      decide +kernel
    have hname : r.name ⟨1, 5⟩ = .ok ⟨"ChatRoomServer"⟩ := by
      decide +kernel
    obtain ⟨herror, -, hcovers, -⟩ := resolve_exact 1 chatDeclarations .go
    have hfailure : r.graph.declared.findSome? (fun p => r.failure? p.1) = none := by
      decide +kernel
    cases htable : resolve r with
    | error x =>
        have hsome := (herror x).1 htable
        rw [hfailure] at hsome
        cases hsome
    | ok t =>
        have ht : t.Covers r := hcovers t htable
        obtain ⟨n, hn, hget⟩ := ht.get?_eq _ _ hservice
        obtain rfl : n = ⟨"ChatRoomServer"⟩ := Except.ok.inj (hn.symm.trans hname)
        have hsize : r.graph.size = 7 := by
          decide +kernel
        refine ⟨t, rfl, ht.size_eq.trans hsize, hget, ?_, ?_⟩
        · by_contra habsent
          exact absurd (ht.oneofOptions_absent_iff.1 habsent _ _ hmember) (by decide)
        · by_contra habsent
          exact ht.clients_absent_iff.1 habsent _ _ hservice rfl
  · exact ((resolve_exact 1 unnamedDeclarations .go).1 _).2 (by decide +kernel)

end NameTable

end StubNames
