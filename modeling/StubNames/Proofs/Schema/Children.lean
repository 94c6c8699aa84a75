import StubNames.Proofs.Schema.Closure
/-!
# Children

A declaration puts its handle behind the children of at most two entities, and these are the ones
that the new entity itself names: its parent and its oneof group.  So an entity lists all entities
that name it, each once and in the order of declaration, whatever was declared in between and
whatever was refused.
-/

namespace StubNames.Schema

/-- Declared inside `h`, or as a member of the oneof group `h`. -/
def Entity.IsUnder (e : Entity) (h : Handle) : Prop :=
  e.parent = some h ∨ e.oneof = some h

instance (e : Entity) (h : Handle) : Decidable (e.IsUnder h) :=
  inferInstanceAs (Decidable (_ ∨ _))

theorem Entity.Grows.isUnder_iff {e e' : Entity} (hgrows : e.Grows e') {h : Handle} :
    e'.IsUnder h ↔ e.IsUnder h := by
  rw [IsUnder, IsUnder, hgrows.parent, oneof, oneof, hgrows.kind]

theorem Handle.eq_iff_of_graph_eq {h h' : Handle} (hgraph : h.graph = h'.graph) :
    h = h' ↔ h.index = h'.index := by
  cases h
  cases h'
  simpa using fun _ => hgraph

def Kind.IsLeaf : Kind → Prop
  | .package => True
  | .field _ => True
  | .enumValue => True
  | .method => True
  | _ => False

namespace Graph

variable {g : Graph} {h child : Handle} {e : Entity} {parents : List Handle}

def under (g : Graph) (h : Handle) : List Handle :=
  g.handles.filter fun c => (g.get? c).any fun m => m.IsUnder h

theorem mem_under_iff {c : Handle} : c ∈ g.under h ↔ ∃ m, g.get? c = some m ∧ m.IsUnder h := by
  rw [under, List.mem_filter, Option.any_eq_true, mem_handles_iff]
  constructor
  · rintro ⟨-, m, hm, hunder⟩
    exact ⟨m, hm, of_decide_eq_true hunder⟩
  · rintro ⟨m, hm, hunder⟩
    exact ⟨by rw [hm]; rfl, m, hm, decide_eq_true hunder⟩

theorem pairwise_handles : g.handles.Pairwise fun c d => c.index < d.index := by
  rw [handles, List.pairwise_map]
  exact List.pairwise_lt_range

theorem pairwise_under : (g.under h).Pairwise fun c d => c.index < d.index :=
  pairwise_handles.filter _

/-! ## While the graph grows -/

theorem under_push {he : ∀ p, e.parent = some p → p.index < g.entities.length} :
    (g.push e he).under h = g.under h ++ if e.IsUnder h then [g.next] else [] := by
  have hold : g.handles.filter (fun c => ((g.push e he).get? c).any fun m => m.IsUnder h) =
      g.under h := by
    apply List.filter_congr
    intro c hc
    have hne : c ≠ g.next := by
      rintro rfl
      rw [mem_handles_iff, get?_next] at hc
      cases hc
    rw [get?_push_of_ne hne]
  rw [under, handles_push, List.filter_append, hold]
  simp [List.filter_cons, get?_push_next]

theorem under_adoptAll : (g.adoptAll child parents).under h = g.under h := by
  rw [under, handles_adoptAll]
  apply List.filter_congr
  intro c hc
  obtain ⟨m, hm⟩ := Option.isSome_iff_exists.1 (mem_handles_iff.1 hc)
  obtain ⟨m', hm', hgrows⟩ := extends_adoptAll.grows c m hm
  rw [hm, hm', Option.any_some, Option.any_some, decide_eq_decide]
  exact hgrows.isUnder_iff

/-- Nothing is under a handle that has not been issued. -/
theorem WellFormed.under_eq_nil (hg : g.WellFormed) (hnone : g.get? h = none) :
    g.under h = [] := by
  rw [List.eq_nil_iff_forall_not_mem]
  intro c hc
  obtain ⟨m, hm, hparent | honeof⟩ := mem_under_iff.1 hc
  · obtain ⟨s, hs, -⟩ := (hg c m hm).parent h hparent
    rw [hnone] at hs
    cases hs
  · obtain ⟨s, hs, -⟩ := (hg c m hm).oneof h (Entity.oneof_eq_some_iff.1 honeof)
    rw [hnone] at hs
    cases hs

theorem get?_adoptAll (hnodup : parents.Nodup) (hhere : ∀ p ∈ parents, p.graph = g.number) :
    (g.adoptAll child parents).get? h = (g.get? h).map fun e =>
      { e with children := e.children ++ if h ∈ parents then [child] else [] } := by
  induction parents generalizing g with
  | nil => simp [adoptAll]
  | cons p parents ih =>
      obtain ⟨hp, htail⟩ := List.nodup_cons.1 hnodup
      have hgraph : p.graph = g.number := hhere p List.mem_cons_self
      have hrest : ∀ q ∈ parents, q.graph = (g.adopt p child).number :=
        fun q hq => hhere q (List.mem_cons_of_mem p hq)
      rw [adoptAll, ih htail hrest, get?_adopt, Option.map_map]
      cases he : g.get? h with
      | none => rfl
      | some e =>
          have hsame : p = h ↔ p.index = h.index :=
            Handle.eq_iff_of_graph_eq (hgraph.trans (graph_eq_of_get? he).symm)
          by_cases heq : p = h
          · subst heq
            simp [hp]
          · simp [← hsame, heq, Ne.symm heq]

end Graph

namespace Declaration.Entry

variable {g : Graph} {d : Declaration} {e : Entity} {parents : List Handle}

/-- A declaration is listed under the entities that it names. -/
theorem mem_parents_iff (h : d.Entry g e parents) {p : Handle} :
    p ∈ parents ↔ e.IsUnder p := by
  cases h with
  | package => simp [Entity.IsUnder, Entity.oneof]
  | file => simp [Entity.IsUnder, Entity.oneof]
  | @member what parent package s outer name =>
      cases what <;> simp [Entity.IsUnder, Entity.oneof, Member.kind, eq_comm]
  | oneofField => simp [Entity.IsUnder, Entity.oneof, eq_comm]

theorem nodup_parents (h : d.Entry g e parents) : parents.Nodup := by
  cases h with
  | package => exact List.nodup_nil
  | file => exact List.nodup_nil
  | member => exact List.pairwise_singleton _ _
  | oneofField name hs hkind hparent hm hmessage =>
      -- the group is no message, so the two lists are those of two entities
      rw [List.nodup_cons, List.mem_singleton]
      refine ⟨?_, List.pairwise_singleton _ _⟩
      rintro rfl
      obtain rfl := Option.some.inj (hs.symm.trans hm)
      rw [hkind] at hmessage
      cases hmessage

theorem isSome_get?_of_mem_parents (h : d.Entry g e parents) {p : Handle} (hp : p ∈ parents) :
    (g.get? p).isSome = true := by
  cases h with
  | package => cases hp
  | file => cases hp
  | member name hs =>
      rw [List.mem_singleton.1 hp, hs]
      rfl
  | oneofField name hs hkind hparent hm =>
      simp only [List.mem_cons, List.not_mem_nil, or_false] at hp
      rcases hp with rfl | rfl
      · rw [hm]
        rfl
      · rw [hs]
        rfl

end Declaration.Entry

/-! ## Exact lists -/

namespace Graph

def ListsUnder (g : Graph) : Prop :=
  ∀ h e, g.get? h = some e → e.children = g.under h

theorem listsUnder_empty (number : Nat) : (empty number).ListsUnder := by
  intro h e he
  simp [get?, empty] at he

end Graph

namespace Builder

/-- What a declaration adds to the children of an entity is what it adds under it. -/
theorem Valid.listsUnder_declare {b : Builder} (hb : b.Valid) (hg : b.graph.ListsUnder)
    (d : Declaration) : (b.declare d).2.graph.ListsUnder := by
  rcases hb.declare_cases d with ⟨x, -, hdeclare⟩ | ⟨e, parents, he, hentry, -, hdeclare⟩
  · rw [hdeclare]
    exact hg
  · rw [hdeclare]
    intro h e' he'
    have hhere : ∀ p ∈ parents, p.graph = (b.graph.push e he).number := fun p hp =>
      (Graph.isSome_get?_iff.1 (hentry.isSome_get?_of_mem_parents hp)).1
    rw [Graph.get?_adoptAll hentry.nodup_parents hhere, Option.map_eq_some_iff] at he'
    obtain ⟨e₀, he₀, rfl⟩ := he'
    have hchildren : e₀.children = b.graph.under h := by
      by_cases hnext : h = b.graph.next
      · subst hnext
        rw [Graph.get?_push_next, Option.some.injEq] at he₀
        subst he₀
        rw [hentry.children_eq_nil, hb.wellFormed.under_eq_nil (Graph.get?_next _)]
      · rw [Graph.get?_push_of_ne hnext] at he₀
        exact hg h e₀ he₀
    rw [Graph.under_adoptAll, Graph.under_push, hchildren]
    simp only [hentry.mem_parents_iff]

theorem Valid.listsUnder_run {b : Builder} (hb : b.Valid) (hg : b.graph.ListsUnder)
    (ds : List Declaration) : (b.run ds).graph.ListsUnder := by
  induction ds generalizing b with
  | nil => exact hg
  | cons d ds ih => exact ih (hb.declare d) (hb.listsUnder_declare hg d)

end Builder

theorem Kind.not_isLeaf_of_mem_hosts {k kind : Kind} (h : k ∈ kind.hosts) : ¬k.IsLeaf := by
  cases kind <;> cases k <;> simp [hosts, IsLeaf] at h ⊢

namespace Graph.WellFormed

variable {g : Graph} {c h : Handle} {m e : Entity}

theorem kind_mem_hosts (hg : g.WellFormed) (hm : g.get? c = some m) (hparent : m.parent = some h)
    (he : g.get? h = some e) : e.kind ∈ m.kind.hosts := by
  obtain ⟨s, hs, -, hhost, -⟩ := (hg c m hm).parent h hparent
  obtain rfl : e = s := Option.some.inj (he.symm.trans hs)
  exact hhost

theorem kind_eq_oneofGroup (hg : g.WellFormed) (hm : g.get? c = some m)
    (honeof : m.oneof = some h) (he : g.get? h = some e) : e.kind = .oneofGroup := by
  obtain ⟨s, hs, -, hgroup, -⟩ := (hg c m hm).oneof h (Entity.oneof_eq_some_iff.1 honeof)
  obtain rfl : e = s := Option.some.inj (he.symm.trans hs)
  exact hgroup

end Graph.WellFormed

/-- The children of every entity are the entities under it, as declared, and each kind has its
own: a message lists its oneof groups and all their members, a oneof group its members. -/
structure Graph.ChildrenExact (g : Graph) : Prop where
  increasing : ∀ h e, g.get? h = some e → e.children.Pairwise fun c d => c.index < d.index
  mem_children : ∀ h e, g.get? h = some e → ∀ c,
    c ∈ e.children ↔ ∃ m, g.get? c = some m ∧ (m.parent = some h ∨ m.oneof = some h)
  member : ∀ c m o, g.get? c = some m → m.oneof = some o → ∃ p s group,
    m.parent = some p ∧ g.get? p = some s ∧ s.kind = .message ∧
    g.get? o = some group ∧ group.kind = .oneofGroup ∧
    c ∈ s.children ∧ o ∈ s.children ∧ c ∈ group.children
  group : ∀ o e, g.get? o = some e → e.kind = .oneofGroup → ∀ c,
    c ∈ e.children ↔ ∃ m, g.get? c = some m ∧ m.oneof = some o
  leaf : ∀ h e, g.get? h = some e → e.kind.IsLeaf → e.children = []

theorem Graph.WellFormed.childrenExact {g : Graph} (hg : g.WellFormed) (hlists : g.ListsUnder) :
    g.ChildrenExact where
  increasing h e he := by
    rw [hlists h e he]
    exact pairwise_under
  mem_children h e he c := by
    rw [hlists h e he]
    exact mem_under_iff
  member c m o hm ho := by
    have hkind : m.kind = .field (some o) := Entity.oneof_eq_some_iff.1 ho
    obtain ⟨p, s, hp, hs, hhost⟩ := hg.exists_parent hm (by simp [hkind]) (by simp [hkind])
    obtain ⟨group, hgroup, -, hgroupKind, hgroupParent⟩ := (hg c m hm).oneof o hkind
    rw [hkind] at hhost
    refine ⟨p, s, group, hp, hs, List.mem_singleton.1 hhost, hgroup, hgroupKind, ?_, ?_, ?_⟩
    · rw [hlists p s hs]
      exact mem_under_iff.2 ⟨m, hm, .inl hp⟩
    · rw [hlists p s hs]
      exact mem_under_iff.2 ⟨group, hgroup, .inl (hgroupParent.trans hp)⟩
    · rw [hlists o group hgroup]
      exact mem_under_iff.2 ⟨m, hm, .inr ho⟩
  group o e he hkind c := by
    rw [hlists o e he, mem_under_iff]
    constructor
    · rintro ⟨m, hm, hparent | honeof⟩
      · have hhost : e.kind ∈ m.kind.hosts := hg.kind_mem_hosts hm hparent he
        exact absurd hkind (Kind.ne_oneofGroup_of_mem_hosts hhost)
      · exact ⟨m, hm, honeof⟩
    · rintro ⟨m, hm, honeof⟩
      exact ⟨m, hm, .inr honeof⟩
  leaf h e he hleaf := by
    rw [hlists h e he, List.eq_nil_iff_forall_not_mem]
    intro c hc
    obtain ⟨m, hm, hparent | honeof⟩ := mem_under_iff.1 hc
    · exact Kind.not_isLeaf_of_mem_hosts (hg.kind_mem_hosts hm hparent he) hleaf
    · rw [hg.kind_eq_oneofGroup hm honeof he] at hleaf
      exact hleaf

/-- Whatever the declarations of a run, each of them refused or not, the children of all entities
are exact, at every point of the run and once built. -/
theorem Builder.children_run (number : Nat) (ds : List Declaration) :
    let b := (start number).run ds
    b.graph.ChildrenExact ∧ b.build.ChildrenExact := by
  intro b
  have hb : b.Valid := valid_run_start number ds
  have hlists : b.graph.ListsUnder :=
    (valid_start number).listsUnder_run (Graph.listsUnder_empty number) ds
  have hexact : b.graph.ChildrenExact := hb.wellFormed.childrenExact hlists
  exact ⟨hexact, hexact⟩

end StubNames.Schema
