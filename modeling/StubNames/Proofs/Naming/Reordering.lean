import StubNames.Proofs.Naming.Agreement
import StubNames.Proofs.Naming.Tabulation
import StubNames.Proofs.Schema.Commutation
/-!
# Names whatever the order

When independent declarations change places, their entities change handles, and the entities that
list them as children list them in another order.  Still each entity has a counterpart under its
full name that tells the same of itself and of what is around it.  So the graphs have the same full
names, and their tables have the same entries.
-/

namespace StubNames

open Schema (Builder Declaration Entity Graph Handle Kind)

namespace Schema.Graph

variable {g₀ g g' : Graph} {ds ds' : List Declaration}

def MirroredIn (g g' : Graph) : Prop :=
  ∀ h e, g.get? h = some e → ∃ h' e', g.Agrees g' h h' e e'

theorem Adds.mirroredIn (hg₀ : g₀.WellFormed) (hadds : g₀.Adds ds g) (hadds' : g₀.Adds ds' g')
    (hsubset : ds ⊆ ds') : g.MirroredIn g' := by
  intro h e he
  rcases hadds.origin h e he with ⟨e₀, he₀, hgrows⟩ | ⟨d, hd, e₀, parents, hentry, hgrows⟩
  · obtain ⟨e', he', hgrows'⟩ := hadds'.extension.grows h e₀ he₀
    exact ⟨h, e', hadds.extension.agrees hadds'.extension hg₀ (hg₀ h e₀ he₀) he hgrows he' hgrows'⟩
  · -- the other graph has what the same declaration makes
    obtain ⟨h', e₁, e', parents', hentry', he', hgrows'⟩ := hadds'.made d (hsubset hd)
    obtain ⟨rfl, rfl⟩ := hentry.unique hentry'
    exact ⟨h', e', hadds.extension.agrees hadds'.extension hg₀ (hentry.wellPlaced hg₀) he hgrows
      he' hgrows'⟩

theorem MirroredIn.exists_lookup (hmirrored : g.MirroredIn g') (hindex : g.Indexed)
    (hindex' : g'.Indexed) {s : String} (hs : s ∈ g.fullNames) :
    ∃ h h' e e', g.lookup s = some h ∧ g'.lookup s = some h' ∧ g.get? h = some e ∧
      g'.get? h' = some e' ∧ e.Agrees e' := by
  obtain ⟨h, e, he, hfull⟩ := mem_fullNames_iff.1 hs
  obtain ⟨h', e', hagrees⟩ := hmirrored h e he
  have hfull' : e'.fullName = s := hagrees.entity.fullName.symm.trans hfull
  exact ⟨h, h', e, e', hindex.lookup_eq_some_iff.2 ⟨e, he, hfull⟩,
    hindex'.lookup_eq_some_iff.2 ⟨e', hagrees.here', hfull'⟩, he, hagrees.here', hagrees.entity⟩

theorem MirroredIn.mem_fullNames (hmirrored : g.MirroredIn g') {s : String}
    (hs : s ∈ g.fullNames) : s ∈ g'.fullNames := by
  obtain ⟨h, e, he, hfull⟩ := mem_fullNames_iff.1 hs
  obtain ⟨h', e', hagrees⟩ := hmirrored h e he
  exact mem_fullNames_iff.2 ⟨h', e', hagrees.here', hagrees.entity.fullName.symm.trans hfull⟩

/-- The graphs have the same full names, and an entity of one tells the same of itself as the
entity of its full name in the other. -/
structure Reordered (g g' : Graph) : Prop where
  fullNames : ∀ s, s ∈ g.fullNames ↔ s ∈ g'.fullNames
  lookup : ∀ s ∈ g.fullNames, ∃ h h' e e', g.lookup s = some h ∧ g'.lookup s = some h' ∧
    g.get? h = some e ∧ g'.get? h' = some e' ∧ e.Agrees e'

theorem reordered_of_mirroredIn (hmirrored : g.MirroredIn g') (hmirrored' : g'.MirroredIn g)
    (hindex : g.Indexed) (hindex' : g'.Indexed) : g.Reordered g' where
  fullNames _ := ⟨hmirrored.mem_fullNames, hmirrored'.mem_fullNames⟩
  lookup _ := hmirrored.exists_lookup hindex hindex'

end Schema.Graph

namespace NameTable

/-! ## Tables as maps -/

section Echo

variable {name name' : Handle → Except NamingError Identifier} {ps ps' : List (Handle × Entity)}
  {m m' : Ordered.Map String Identifier}

/-- Each of the entities `ps` has its full name and its name among the entities `ps'` as well. -/
def Echoed (name name' : Handle → Except NamingError Identifier)
    (ps ps' : List (Handle × Entity)) : Prop :=
  ∀ p ∈ ps, ∃ p' ∈ ps', p.2.fullName = p'.2.fullName ∧ name p.1 = name' p'.1

theorem Echoed.get?_eq_some (hecho : Echoed name name' ps ps')
    (hm : List.Forall₂ (Lists name) ps m.entries) (hm' : List.Forall₂ (Lists name') ps' m'.entries)
    {s : String} {n : Identifier} (hn : m.get? s = some n) : m'.get? s = some n := by
  obtain ⟨p, hp, hfull, hname⟩ := exists_of_mem_lists hm (Ordered.Map.get?_eq_some_iff.1 hn)
  obtain ⟨p', hp', hfull', hname'⟩ := hecho p hp
  obtain ⟨n', hn', hget⟩ := get?_of_lists hm' hp'
  obtain rfl : n = n' := Except.ok.inj (hname.symm.trans (hname'.trans hn'))
  rw [show s = p'.2.fullName from hfull.trans hfull', hget]

theorem get?_eq_of_echoed (hecho : Echoed name name' ps ps') (hecho' : Echoed name' name ps' ps)
    (hm : List.Forall₂ (Lists name) ps m.entries) (hm' : List.Forall₂ (Lists name') ps' m'.entries)
    (s : String) : m.get? s = m'.get? s := by
  apply Option.ext
  intro n
  exact ⟨hecho.get?_eq_some hm hm', hecho'.get?_eq_some hm' hm⟩

end Echo

/-- Two tables that tell the same, in whatever order. -/
structure SameMaps (t t' : NameTable) : Prop where
  names : ∀ s, t.get? s = t'.get? s
  oneofOptions : ∀ s, t.oneofOption? s = t'.oneofOption? s
  clients : ∀ s, t.clientName? s = t'.clientName? s

section Mirrored

variable {b b' : Builder}

theorem echoed_of_mirroredIn {g g' : Graph} (hmirrored : g.MirroredIn g')
    {name name' : Handle → Except NamingError Identifier}
    (hname : ∀ {h h' e e'}, g.Agrees g' h h' e e' → name h = name' h') {keep : Entity → Bool}
    (hkeep : ∀ {e e'}, e.Agrees e' → keep e = keep e') :
    Echoed name name' (g.declared.filter fun p => keep p.2)
      (g'.declared.filter fun p => keep p.2) := by
  rintro ⟨h, e⟩ hmem
  obtain ⟨hmem, hkept⟩ := List.mem_filter.1 hmem
  obtain ⟨h', e', hagrees⟩ := hmirrored h e (Graph.mem_declared_iff.1 hmem)
  refine ⟨(h', e'), List.mem_filter.2 ⟨Graph.mem_declared_iff.2 hagrees.here', ?_⟩,
    hagrees.entity.fullName, hname hagrees⟩
  exact (hkeep hagrees.entity).symm.trans hkept

/-- One part of the tables, for which both list the entities that are kept. -/
theorem get?_eq_of_mirroredIn (hb : b.Valid) (hb' : b'.Valid)
    (hmirrored : b.graph.MirroredIn b'.graph) (hmirrored' : b'.graph.MirroredIn b.graph)
    (convention : Convention) (name : Resolver → Handle → Except NamingError Identifier)
    (hname : ∀ {r r' : Resolver} {h h'}, r.Concurs r' h h' → name r h = name r' h')
    (keep : Entity → Bool) (hkeep : ∀ {e e' : Entity}, e.Agrees e' → keep e = keep e')
    {m m' : Ordered.Map String Identifier}
    (hm : List.Forall₂ (Lists (name ⟨b.graph, convention⟩))
      (b.graph.declared.filter fun p => keep p.2) m.entries)
    (hm' : List.Forall₂ (Lists (name ⟨b'.graph, convention⟩))
      (b'.graph.declared.filter fun p => keep p.2) m'.entries) (s : String) :
    m.get? s = m'.get? s := by
  have hecho := echoed_of_mirroredIn hmirrored (fun hagrees => hname
    (Resolver.concurs_of_agrees hb.wellFormed hb'.wellFormed hagrees convention)) hkeep
  have hecho' := echoed_of_mirroredIn hmirrored' (fun hagrees => hname
    (Resolver.concurs_of_agrees hb'.wellFormed hb.wellFormed hagrees convention)) hkeep
  exact get?_eq_of_echoed hecho hecho' hm hm' s

theorem sameMaps_of_mirroredIn (hb : b.Valid) (hb' : b'.Valid)
    (hmirrored : b.graph.MirroredIn b'.graph) (hmirrored' : b'.graph.MirroredIn b.graph)
    {convention : Convention} {t t' : NameTable} (ht : resolve ⟨b.graph, convention⟩ = .ok t)
    (ht' : resolve ⟨b'.graph, convention⟩ = .ok t') : t.SameMaps t' := by
  have htab := tabulates_of_resolve hb.wellFormed hb.indexed ht
  have htab' := tabulates_of_resolve hb'.wellFormed hb'.indexed ht'
  refine ⟨?_, ?_, ?_⟩
  · refine get?_eq_of_mirroredIn hb hb' hmirrored hmirrored' convention Resolver.name
      Resolver.Concurs.name (fun _ => true) (fun _ => rfl) ?_ ?_
    · rw [List.filter_true]
      exact htab.names
    · rw [List.filter_true]
      exact htab'.names
  · refine get?_eq_of_mirroredIn hb hb' hmirrored hmirrored' convention Resolver.oneofOption
      Resolver.Concurs.oneofOption (fun e => e.oneof.isSome) (fun hentity => ?_)
      htab.oneofOptions htab'.oneofOptions
    rw [Entity.oneof, Entity.oneof, hentity.kind]
  · refine get?_eq_of_mirroredIn hb hb' hmirrored hmirrored' convention Resolver.clientName
      Resolver.Concurs.clientName (fun e => e.kind == .service) (fun hentity => ?_)
      htab.clients htab'.clients
    rw [hentity.kind]

theorem exists_resolve_of_mirroredIn (hb : b.Valid) (hb' : b'.Valid)
    (hmirrored : b.graph.MirroredIn b'.graph) {convention : Convention}
    (ht' : ∃ t', resolve ⟨b'.graph, convention⟩ = .ok t') :
    ∃ t, resolve ⟨b.graph, convention⟩ = .ok t := by
  rw [exists_resolve_iff hb'.wellFormed hb'.indexed] at ht'
  refine (exists_resolve_iff hb.wellFormed hb.indexed).2 fun h e he => ?_
  obtain ⟨h', e', hagrees⟩ := hmirrored h e he
  rw [(Resolver.concurs_of_agrees hb.wellFormed hb'.wellFormed hagrees convention).name]
  exact ht' h' e' hagrees.here'

end Mirrored

end NameTable

/-! ## Changing places -/

namespace Schema.Builder

variable {b : Builder} {ds ds' : List Declaration}

theorem Valid.mirroredIn_of_perm (hb : b.Valid) (hgrounded : ∀ d ∈ ds, d.Grounded b.graph)
    (hperm : ds.Perm ds') (hmakes : b.Makes ds) :
    (b.run ds).graph.MirroredIn (b.run ds').graph := by
  have hgrounded' : ∀ d ∈ ds', d.Grounded b.graph :=
    fun d hd => hgrounded d (hperm.mem_iff.2 hd)
  exact (hb.adds_run hgrounded hmakes).mirroredIn hb.wellFormed
    (hb.adds_run hgrounded' ((hb.makes_perm hgrounded hperm).1 hmakes)) hperm.subset

end Schema.Builder

/-- Two declarations, at any point of a run, whose parents were declared before both of them may
change places.  This includes parents in other graphs, under which neither order declares anything.
-/
theorem declarations_commute (number : Nat) (before : List Declaration) (d₁ d₂ : Declaration)
    (hissued : ∀ d ∈ [d₁, d₂], ∀ h, d.host? = some h → h.graph = number →
      h ∈ (Builder.start number).issued before) :
    let b := (Builder.start number).run before
    let g := (b.run [d₁, d₂]).build
    let g' := (b.run [d₂, d₁]).build
    (b.Makes [d₁, d₂] ↔ b.Makes [d₂, d₁]) ∧
    (b.Makes [d₁, d₂] → g.Reordered g' ∧ ∀ convention,
      ((∃ t, NameTable.resolve ⟨g, convention⟩ = .ok t) ↔
        ∃ t', NameTable.resolve ⟨g', convention⟩ = .ok t') ∧
      ∀ t t', NameTable.resolve ⟨g, convention⟩ = .ok t →
        NameTable.resolve ⟨g', convention⟩ = .ok t' → t.SameMaps t') := by
  intro b g g'
  have hb : b.Valid := Builder.valid_run_start number before
  have hrun : (b.run [d₁, d₂]).Valid := hb.run [d₁, d₂]
  have hrun' : (b.run [d₂, d₁]).Valid := hb.run [d₂, d₁]
  have hgrounded : ∀ d ∈ [d₁, d₂], d.Grounded b.graph := by
    intro d hd h hhost hgraph
    rw [← Graph.mem_handles_iff, ← Builder.issued_start]
    exact hissued d hd h hhost (hgraph.trans (Builder.number_run_start number before))
  have hperm : [d₁, d₂].Perm [d₂, d₁] := .swap d₂ d₁ []
  have hmakes : b.Makes [d₁, d₂] ↔ b.Makes [d₂, d₁] := hb.makes_perm hgrounded hperm
  refine ⟨hmakes, fun hmade => ?_⟩
  have hmirrored : g.MirroredIn g' := hb.mirroredIn_of_perm hgrounded hperm hmade
  have hmirrored' : g'.MirroredIn g :=
    hb.mirroredIn_of_perm (fun d hd => hgrounded d (hperm.mem_iff.2 hd)) hperm.symm
      (hmakes.1 hmade)
  refine ⟨Graph.reordered_of_mirroredIn hmirrored hmirrored' hrun.indexed hrun'.indexed,
    fun convention => ⟨⟨?_, ?_⟩, fun t t' ht ht' => ?_⟩⟩
  · exact NameTable.exists_resolve_of_mirroredIn hrun' hrun hmirrored'
  · exact NameTable.exists_resolve_of_mirroredIn hrun hrun' hmirrored
  · exact NameTable.sameMaps_of_mirroredIn hrun hrun' hmirrored hmirrored' ht ht'

def postDeclarations : List Declaration :=
  [.package "blog", .file ⟨1, 0⟩ "blog.proto", .member .message ⟨1, 1⟩ "post",
    .member .oneof ⟨1, 2⟩ "body"]

theorem declarations_commute_post :
    let b := (Builder.start 1).run postDeclarations
    let g := (b.run [.oneofField ⟨1, 3⟩ "text", .member .service ⟨1, 1⟩ "feed"]).build
    let g' := (b.run [.member .service ⟨1, 1⟩ "feed", .oneofField ⟨1, 3⟩ "text"]).build
    g.lookup ".blog.post.text" = some ⟨1, 4⟩ ∧ g'.lookup ".blog.post.text" = some ⟨1, 5⟩ ∧
      (∃ e e', g.get? ⟨1, 4⟩ = some e ∧ g'.get? ⟨1, 5⟩ = some e' ∧ e.Agrees e') ∧
      ∃ t', NameTable.resolve ⟨g', .go⟩ = .ok t' ∧
        t'.oneofOption? ".blog.post.text" = some ⟨"Post_Text"⟩ := by
  intro b g g'
  obtain ⟨-, hcommute⟩ := declarations_commute 1 postDeclarations (.oneofField ⟨1, 3⟩ "text")
    (.member .service ⟨1, 1⟩ "feed") (by
      intro d hd h hhost _
      rcases List.mem_pair.1 hd with rfl | rfl
      · obtain rfl := Option.some.inj hhost
        decide +kernel
      · obtain rfl := Option.some.inj hhost
        decide +kernel)
  have hreplies : b.replies [.oneofField ⟨1, 3⟩ "text", .member .service ⟨1, 1⟩ "feed"] =
      [.ok ⟨1, 4⟩, .ok ⟨1, 5⟩] := by
    decide +kernel
  obtain ⟨hreordered, htables⟩ := hcommute (by
    intro x hx
    rw [hreplies] at hx
    rcases List.mem_pair.1 hx with rfl | rfl
    · exact ⟨⟨1, 4⟩, rfl⟩
    · exact ⟨⟨1, 5⟩, rfl⟩)
  have hlookup : g.lookup ".blog.post.text" = some ⟨1, 4⟩ := by
    decide +kernel
  have hlookup' : g'.lookup ".blog.post.text" = some ⟨1, 5⟩ := by
    decide +kernel
  refine ⟨hlookup, hlookup', ?_, ?_⟩
  · obtain ⟨h, h', e, e', hh, hh', he, he', hagrees⟩ :=
      hreordered.lookup ".blog.post.text" (by decide +kernel)
    obtain rfl := Option.some.inj (hlookup.symm.trans hh)
    obtain rfl := Option.some.inj (hlookup'.symm.trans hh')
    exact ⟨e, e', he, he', hagrees⟩
  · have hoption : (NameTable.resolve ⟨g, .go⟩).toOption.bind
        (fun t => t.oneofOption? ".blog.post.text") = some ⟨"Post_Text"⟩ := by
      decide +kernel
    obtain ⟨t, ht, htext⟩ := Option.bind_eq_some_iff.1 hoption
    obtain ⟨hresolve, hsame⟩ := htables .go
    have htable : NameTable.resolve ⟨g, .go⟩ = .ok t := by
      cases htable : NameTable.resolve ⟨g, .go⟩ with
      | error x =>
          rw [htable] at ht
          cases ht
      | ok t₁ =>
          rw [htable] at ht
          exact congrArg Except.ok (Option.some.inj ht)
    obtain ⟨t', ht'⟩ := hresolve.1 ⟨t, htable⟩
    exact ⟨t', ht', by rw [← (hsame t t' htable ht').oneofOptions, htext]⟩

end StubNames
