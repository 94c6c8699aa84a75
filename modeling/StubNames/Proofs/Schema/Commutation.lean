import StubNames.Proofs.Schema.Closure
import StubNames.Proofs.Schema.Extension
/-!
# Independent declarations

Declarations whose parents are there before any of them do not see one another: each makes the
entity that it would make alone, and only a full name can stand in its way.  So it depends on the
declarations and not on their order whether all of them are made and which entities there are in
the end.
-/

namespace StubNames.Schema

namespace Declaration

variable {g g' : Graph} {d : Declaration} {e e' : Entity} {parents parents' : List Handle}
  {issued : List Handle}

/-- The parent is an entity of the graph, unless its handle is of another one. -/
def Grounded (g : Graph) (d : Declaration) : Prop :=
  ∀ h, d.host? = some h → h.graph = g.number → (g.get? h).isSome = true

/-! ## Later graphs -/

theorem Grounded.mono (hd : d.Grounded g) (hext : g.Extends g') : d.Grounded g' := by
  intro h hhost hgraph
  exact Graph.isSome_get?_of_extends hext (hd h hhost (hgraph.trans hext.number))

theorem Grounded.hosted_iff (hd : d.Grounded g) (hext : g.Extends g') :
    d.Hosted g' g'.handles ↔ d.Hosted g g.handles := by
  constructor
  · intro hhosted h hhost
    obtain ⟨hmem, e', he', hkind⟩ := hhosted h hhost
    have hsome : (g.get? h).isSome = true :=
      hd h hhost ((Graph.graph_eq_of_mem_handles hmem).trans hext.number)
    obtain ⟨e, he⟩ := Option.isSome_iff_exists.1 hsome
    obtain ⟨e'', he'', hgrows⟩ := hext.grows h e he
    obtain rfl : e' = e'' := Option.some.inj (he'.symm.trans he'')
    exact ⟨Graph.mem_handles_iff.2 hsome, e, he, hgrows.kind ▸ hkind⟩
  · intro hhosted h hhost
    obtain ⟨hmem, e, he, hkind⟩ := hhosted h hhost
    obtain ⟨e', he', hgrows⟩ := hext.grows h e he
    have hsome : (g.get? h).isSome = true := Graph.mem_handles_iff.1 hmem
    exact ⟨Graph.mem_handles_iff.2 (Graph.isSome_get?_of_extends hext hsome), e', he',
      hgrows.kind.symm ▸ hkind⟩

theorem Entry.mono (hentry : d.Entry g e parents) (hext : g.Extends g') :
    d.Entry g' e parents := by
  cases hentry with
  | package name => exact .package name
  | @file package s path hs hkind =>
      obtain ⟨s', hs', hgrows⟩ := hext.grows package s hs
      exact .file path hs' (hgrows.kind.trans hkind)
  | @member what parent package s outer name hs hkind hpackage houter =>
      obtain ⟨s', hs', hgrows⟩ := hext.grows parent s hs
      exact .member name hs' (hgrows.kind.symm ▸ hkind) (hgrows.package.trans hpackage)
        (hext.scopeName?_eq_some hgrows houter)
  | @oneofField group message package s m name hs hkind hparent hm hmessage hpackage =>
      obtain ⟨s', hs', hgrows⟩ := hext.grows group s hs
      obtain ⟨m', hm', hmgrows⟩ := hext.grows message m hm
      rw [← hmgrows.fullName]
      exact .oneofField name hs' (hgrows.kind.trans hkind) (hgrows.parent.trans hparent) hm'
        (hmgrows.kind.trans hmessage) (hmgrows.package.trans hpackage)

/-- A declaration that could be made before makes what it would have made then. -/
theorem Entry.of_extends (hentry' : d.Entry g' e' parents') (hext : g.Extends g')
    (hentry : d.Entry g e parents) : d.Entry g e' parents' := by
  obtain ⟨rfl, rfl⟩ := hentry'.unique (hentry.mono hext)
  exact hentry

/-! ## What stands in the way -/

theorem Entry.fullName?_eq_some (hentry : d.Entry g e parents) :
    d.fullName? g = some e.fullName := by
  cases hentry with
  | package name => rfl
  | file path hs hkind => rfl
  | member name hs hkind hpackage houter => simp [fullName?, hs, houter]
  | oneofField name hs hkind hparent hm hmessage hpackage => simp [fullName?, hs, hparent, hm]

theorem Entry.admitted_iff (hentry : d.Entry g e parents) (hhosted : d.Hosted g issued) :
    d.Admitted g issued ↔ d.name ≠ "" ∧ e.fullName ∉ g.fullNames := by
  constructor
  · rintro ⟨-, hnamed, fullName, hfull, hfree⟩
    rw [hentry.fullName?_eq_some, Option.some.injEq] at hfull
    exact ⟨hnamed, hfull ▸ hfree⟩
  · rintro ⟨hnamed, hfree⟩
    exact ⟨hhosted, hnamed, e.fullName, hentry.fullName?_eq_some, hfree⟩

end Declaration

namespace Builder

variable {b : Builder} {g : Graph} {d : Declaration} {ds ds' : List Declaration}

theorem Valid.exists_entry (hb : b.Valid) (hd : d.Hosted b.graph b.graph.handles) :
    ∃ e parents, d.Entry b.graph e parents := by
  obtain ⟨fullName, parent, package, parents, -, hentry, -⟩ := declare_of_hosted hb.wellFormed hd
  exact ⟨_, parents, hentry⟩

/-- Another entity stands in the way of a declaration by its full name only. -/
theorem Valid.admitted_iff_of_extends (hb : b.Valid) (hext : b.graph.Extends g)
    (hgrounded : d.Grounded b.graph) {fullName : String}
    (hnames : g.fullNames = b.graph.fullNames ++ [fullName]) :
    d.Admitted g g.handles ↔
      d.Admitted b.graph b.graph.handles ∧ d.fullName? b.graph ≠ some fullName := by
  by_cases hhosted : d.Hosted b.graph b.graph.handles
  · obtain ⟨e, parents, hentry⟩ := hb.exists_entry hhosted
    have hhosted' : d.Hosted g g.handles := (hgrounded.hosted_iff hext).2 hhosted
    rw [(hentry.mono hext).admitted_iff hhosted', hentry.admitted_iff hhosted,
      hentry.fullName?_eq_some, hnames]
    simp [and_assoc]
  · constructor
    · exact fun hd => absurd ((hgrounded.hosted_iff hext).1 hd.hosted) hhosted
    · exact fun hd => absurd hd.1.hosted hhosted

theorem Valid.fullName?_eq_of_extends (hb : b.Valid) (hext : b.graph.Extends g)
    (hd : d.Hosted b.graph b.graph.handles) : d.fullName? g = d.fullName? b.graph := by
  obtain ⟨e, parents, hentry⟩ := hb.exists_entry hd
  rw [(hentry.mono hext).fullName?_eq_some, hentry.fullName?_eq_some]

/-! ## Whether all are made -/

def Makes (b : Builder) (ds : List Declaration) : Prop :=
  ∀ x ∈ b.replies ds, ∃ h, x = .ok h

theorem makes_cons_iff : b.Makes (d :: ds) ↔
    (∃ h, (b.declare d).1 = .ok h) ∧ (b.declare d).2.Makes ds :=
  List.forall_mem_cons

theorem Valid.makes_iff (hb : b.Valid) (hgrounded : ∀ d ∈ ds, d.Grounded b.graph) :
    b.Makes ds ↔ (∀ d ∈ ds, d.Admitted b.graph b.graph.handles) ∧
      (ds.map (Declaration.fullName? b.graph)).Nodup := by
  induction ds generalizing b with
  | nil => simp [Makes, replies]
  | cons d ds ih =>
      obtain ⟨-, hground⟩ := List.forall_mem_cons.1 hgrounded
      rw [makes_cons_iff, List.forall_mem_cons, List.map_cons, List.nodup_cons]
      by_cases hd : d.Admitted b.graph b.graph.handles
      · obtain ⟨e, parents, he, hentry, -, hdeclare⟩ := hb.exists_declare_eq_ok hd
        have hext : b.graph.Extends (b.declare d).2.graph := hb.extends_declare d
        have hnames : (b.declare d).2.graph.fullNames = b.graph.fullNames ++ [e.fullName] := by
          rw [hdeclare, Graph.fullNames_adoptAll, Graph.fullNames_push]
        rw [ih (hb.declare d) fun x hx => (hground x hx).mono hext]
        -- the entity that is there now has put its full name in the way of the others
        have hstep : ∀ x ∈ ds,
            x.Admitted (b.declare d).2.graph (b.declare d).2.graph.handles ↔
              x.Admitted b.graph b.graph.handles ∧ x.fullName? b.graph ≠ some e.fullName :=
          fun x hx => hb.admitted_iff_of_extends hext (hground x hx) hnames
        have hmap : (∀ x ∈ ds, x.Admitted b.graph b.graph.handles) →
            ds.map (Declaration.fullName? (b.declare d).2.graph) =
              ds.map (Declaration.fullName? b.graph) := fun hall =>
          List.map_congr_left fun x hx => hb.fullName?_eq_of_extends hext (hall x hx).hosted
        constructor
        · rintro ⟨-, hlater, hnodup⟩
          have hall : ∀ x ∈ ds, x.Admitted b.graph b.graph.handles :=
            fun x hx => ((hstep x hx).1 (hlater x hx)).1
          refine ⟨⟨hd, hall⟩, fun hmem => ?_, hmap hall ▸ hnodup⟩
          obtain ⟨x, hx, heq⟩ := List.mem_map.1 hmem
          exact ((hstep x hx).1 (hlater x hx)).2 (heq.trans hentry.fullName?_eq_some)
        · rintro ⟨⟨-, hall⟩, hfree, hnodup⟩
          refine ⟨⟨_, by rw [hdeclare]⟩, fun x hx => ?_, hmap hall ▸ hnodup⟩
          refine (hstep x hx).2 ⟨hall x hx, fun heq => hfree ?_⟩
          exact List.mem_map.2 ⟨x, hx, heq.trans hentry.fullName?_eq_some.symm⟩
      · obtain ⟨x, hrefusal⟩ := (hb.admitted_or_refusal d).resolve_left hd
        rw [hb.declare_eq_error hrefusal]
        simp [hd]

theorem Valid.makes_perm (hb : b.Valid) (hgrounded : ∀ d ∈ ds, d.Grounded b.graph)
    (hperm : ds.Perm ds') : b.Makes ds ↔ b.Makes ds' := by
  have hgrounded' : ∀ d ∈ ds', d.Grounded b.graph :=
    fun d hd => hgrounded d (hperm.mem_iff.2 hd)
  rw [hb.makes_iff hgrounded, hb.makes_iff hgrounded', (hperm.map _).nodup_iff]
  simp only [hperm.mem_iff]

end Builder

/-! ## What is made -/

namespace Graph

variable {g g₁ g' : Graph} {ds ds' : List Declaration}

/-- Besides the entities of `g`, the graph `g'` has the ones that the declarations make in `g`,
and no others. -/
structure Adds (g : Graph) (ds : List Declaration) (g' : Graph) : Prop where
  extension : g.Extends g'
  origin : ∀ h e', g'.get? h = some e' → (∃ e, g.get? h = some e ∧ e.Grows e') ∨
    ∃ d ∈ ds, ∃ e parents, d.Entry g e parents ∧ e.Grows e'
  made : ∀ d ∈ ds, ∃ h e e' parents, d.Entry g e parents ∧ g'.get? h = some e' ∧ e.Grows e'

theorem adds_nil (g : Graph) : g.Adds [] g where
  extension := .refl g
  origin _ e he := .inl ⟨e, he, .refl e⟩
  made := by simp

theorem Adds.append (h : g.Adds ds g₁) (h' : g₁.Adds ds' g')
    (hentries : ∀ d ∈ ds', ∃ e parents, d.Entry g e parents) : g.Adds (ds ++ ds') g' where
  extension := h.extension.trans h'.extension
  origin x e' he' := by
    rcases h'.origin x e' he' with ⟨e₁, he₁, hgrows⟩ | ⟨d, hd, e, parents, hentry, hgrows⟩
    · rcases h.origin x e₁ he₁ with ⟨e, he, hgrows₁⟩ | ⟨d, hd, e, parents, hentry, hgrows₁⟩
      · exact .inl ⟨e, he, hgrows₁.trans hgrows⟩
      · exact .inr ⟨d, List.mem_append_left _ hd, e, parents, hentry, hgrows₁.trans hgrows⟩
    · obtain ⟨e₀, parents₀, hentry₀⟩ := hentries d hd
      exact .inr ⟨d, List.mem_append_right _ hd, e, parents,
        hentry.of_extends h.extension hentry₀, hgrows⟩
  made d hd := by
    rcases List.mem_append.1 hd with hd | hd
    · obtain ⟨x, e, e₁, parents, hentry, he₁, hgrows⟩ := h.made d hd
      obtain ⟨e', he', hgrows'⟩ := h'.extension.grows x e₁ he₁
      exact ⟨x, e, e', parents, hentry, he', hgrows.trans hgrows'⟩
    · obtain ⟨x, e, e', parents, hentry, he', hgrows⟩ := h'.made d hd
      obtain ⟨e₀, parents₀, hentry₀⟩ := hentries d hd
      exact ⟨x, e, e', parents, hentry.of_extends h.extension hentry₀, he', hgrows⟩

end Graph

namespace Builder

variable {b : Builder} {d : Declaration} {ds : List Declaration}

theorem Valid.adds_declare (hb : b.Valid) (hd : d.Admitted b.graph b.graph.handles) :
    b.graph.Adds [d] (b.declare d).2.graph := by
  obtain ⟨e, parents, he, hentry, -, hdeclare⟩ := hb.exists_declare_eq_ok hd
  refine ⟨hb.extends_declare d, fun x e' he' => ?_, fun x hx => ?_⟩
  · rw [hdeclare] at he'
    obtain ⟨e₁, he₁, hgrows⟩ := Graph.extends_adoptAll.exists_of_size_eq Graph.size_adoptAll he'
    by_cases hnext : x = b.graph.next
    · rw [hnext, Graph.get?_push_next, Option.some.injEq] at he₁
      exact .inr ⟨d, List.mem_singleton_self d, e, parents, hentry, he₁ ▸ hgrows⟩
    · rw [Graph.get?_push_of_ne hnext] at he₁
      exact .inl ⟨e₁, he₁, hgrows⟩
  · rw [List.mem_singleton.1 hx, hdeclare]
    have hext : (b.graph.push e he).Extends ((b.graph.push e he).adoptAll b.graph.next parents) :=
      Graph.extends_adoptAll
    obtain ⟨e', he', hgrows⟩ := hext.grows b.graph.next e Graph.get?_push_next
    exact ⟨b.graph.next, e, e', parents, hentry, he', hgrows⟩

theorem Valid.adds_run (hb : b.Valid) (hgrounded : ∀ d ∈ ds, d.Grounded b.graph)
    (hmakes : b.Makes ds) : b.graph.Adds ds (b.run ds).graph := by
  induction ds generalizing b with
  | nil => exact Graph.adds_nil b.graph
  | cons d ds ih =>
      obtain ⟨hd, hall⟩ := List.forall_mem_cons.1 ((hb.makes_iff hgrounded).1 hmakes).1
      obtain ⟨-, hground⟩ := List.forall_mem_cons.1 hgrounded
      have hrest : (b.declare d).2.graph.Adds ds (b.run (d :: ds)).graph :=
        ih (hb.declare d) (fun x hx => (hground x hx).mono (hb.extends_declare d))
          (makes_cons_iff.1 hmakes).2
      exact (hb.adds_declare hd).append hrest fun x hx => hb.exists_entry (hall x hx).hosted

end Builder

end StubNames.Schema
