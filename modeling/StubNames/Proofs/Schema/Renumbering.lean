import Mathlib.Data.List.Forall2
import StubNames.Proofs.Schema.Run
/-!
# Graphs under other numbers

The number of a graph only serves to tell its handles from those of others.  Two builders that are
given the same declarations give the same answers and end with the same graph, except for their
numbers: own handles differ by the number alone, and a handle of another graph is refused whatever
its number is.
-/

namespace StubNames.Schema

/-! ## Data under another number -/

def Handle.withNumber (number : Nat) (h : Handle) : Handle :=
  ⟨number, h.index⟩

def Kind.withNumber (number : Nat) : Kind → Kind
  | .field oneof => .field (oneof.map (Handle.withNumber number))
  | k => k

def Entity.withNumber (number : Nat) (e : Entity) : Entity where
  kind := e.kind.withNumber number
  name := e.name
  fullName := e.fullName
  parent := e.parent.map (Handle.withNumber number)
  package := e.package.map (Handle.withNumber number)
  children := e.children.map (Handle.withNumber number)

theorem Kind.withNumber_eq_iff {k k' : Kind} (hk : ∀ oneof, k' ≠ .field oneof) (number : Nat) :
    k.withNumber number = k' ↔ k = k' := by
  cases k with
  | field oneof =>
      exact ⟨fun h => absurd h.symm (hk _), fun h => absurd h.symm (hk oneof)⟩
  | _ => rfl

/-- Handles that two builders are given: of the same position, and both own or both foreign. -/
structure Handle.Matches (n n' : Nat) (h h' : Handle) : Prop where
  index : h'.index = h.index
  own : h'.graph = n' ↔ h.graph = n

theorem Handle.Matches.eq_withNumber {n n' : Nat} {h h' : Handle} (hh : h.Matches n n' h')
    (hown : h.graph = n) : h' = h.withNumber n' := by
  have hgraph : h'.graph = n' := hh.own.2 hown
  calc
    h' = ⟨h'.graph, h'.index⟩ := rfl
    _ = h.withNumber n' := by rw [hgraph, hh.index, Handle.withNumber]

inductive Declaration.Matches (n n' : Nat) : Declaration → Declaration → Prop where
  | package (name : String) : Matches n n' (.package name) (.package name)
  | file {home home' : Handle} (hhome : home.Matches n n' home') (path : String) :
      Matches n n' (.file home path) (.file home' path)
  | member {home home' : Handle} (what : Member) (hhome : home.Matches n n' home')
      (name : String) : Matches n n' (.member what home name) (.member what home' name)
  | oneofField {group group' : Handle} (hgroup : group.Matches n n' group') (name : String) :
      Matches n n' (.oneofField group name) (.oneofField group' name)

inductive AnswersMatch (n n' : Nat) :
    Except DeclarationError Handle → Except DeclarationError Handle → Prop where
  | issued (index : Nat) : AnswersMatch n n' (.ok ⟨n, index⟩) (.ok ⟨n', index⟩)
  | unknownEntity {h h' : Handle} (hh : h.Matches n n' h') :
      AnswersMatch n n' (.error (.unknownEntity h)) (.error (.unknownEntity h'))
  | invalidParent (child parent : Kind) :
      AnswersMatch n n' (.error (.invalidParent child parent))
        (.error (.invalidParent (child.withNumber n') (parent.withNumber n')))
  | emptyName (kind : Kind) :
      AnswersMatch n n' (.error (.emptyName kind)) (.error (.emptyName (kind.withNumber n')))
  | duplicate (fullName : String) :
      AnswersMatch n n' (.error (.duplicate fullName)) (.error (.duplicate fullName))

namespace Graph

/-- The graph `g'` is `g` under the number of `g'`. -/
structure Renumbered (g g' : Graph) : Prop where
  entities : g'.entities = g.entities.map (Entity.withNumber g'.number)
  index : g'.index.entries = g.index.entries.map fun p => (p.1, p.2.withNumber g'.number)

/-! ## What two such graphs share -/

section Renumbered

variable {g g' : Graph} {h h' : Handle} {e : Entity}

theorem renumbered_empty (n n' : Nat) : (empty n).Renumbered (empty n') :=
  ⟨rfl, rfl⟩

theorem matches_withNumber (he : g.get? h = some e) :
    h.Matches g.number g'.number (h.withNumber g'.number) where
  index := rfl
  own := iff_of_true rfl (graph_eq_of_get? he)

namespace Renumbered

theorem size_eq (hr : g.Renumbered g') : g'.size = g.size := by
  rw [size, hr.entities, List.length_map, size]

theorem next_eq (hr : g.Renumbered g') : g'.next = g.next.withNumber g'.number := by
  rw [next, hr.size_eq]
  rfl

theorem fullNames_eq (hr : g.Renumbered g') : g'.fullNames = g.fullNames := by
  rw [fullNames, hr.entities, List.map_map, fullNames]
  rfl

theorem get?_eq (hr : g.Renumbered g') (hh : h.Matches g.number g'.number h') :
    g'.get? h' = (g.get? h).map (Entity.withNumber g'.number) := by
  unfold get?
  by_cases hown : h.graph = g.number
  · rw [if_pos hown, if_pos (hh.own.2 hown), hr.entities, List.getElem?_map, hh.index]
  · rw [if_neg hown, if_neg (mt hh.own.1 hown)]
    rfl

theorem get?_withNumber (hr : g.Renumbered g') (he : g.get? h = some e) :
    g'.get? (h.withNumber g'.number) = some (e.withNumber g'.number) := by
  rw [hr.get?_eq (matches_withNumber he), he]
  rfl

theorem mem_handles_iff (hr : g.Renumbered g') (hh : h.Matches g.number g'.number h') :
    h' ∈ g'.handles ↔ h ∈ g.handles := by
  rw [Graph.mem_handles_iff, Graph.mem_handles_iff, hr.get?_eq hh, Option.isSome_map]

theorem scopeName?_eq (hr : g.Renumbered g') (hg : g.WellFormed) (he : g.get? h = some e) :
    g'.scopeName? (e.withNumber g'.number) = g.scopeName? e := by
  have hkind : (e.withNumber g'.number).kind = .file ↔ e.kind = .file :=
    Kind.withNumber_eq_iff (by simp) _
  unfold scopeName?
  by_cases hfile : e.kind = .file
  · rw [if_pos (hkind.2 hfile), if_pos hfile]
    show ((e.package.map (Handle.withNumber g'.number)).bind g'.get?).map Entity.fullName = _
    cases hpackage : e.package with
    | none => rfl
    | some p =>
        obtain ⟨s, hs, -⟩ := (hg h e he).package p hpackage
        rw [Option.map_some, Option.bind_some, Option.bind_some, hr.get?_withNumber hs, hs]
        rfl
  · rw [if_neg (mt hkind.1 hfile), if_neg hfile]
    rfl

/-! ## The same steps -/

theorem push {he : ∀ p, e.parent = some p → p.index < g.entities.length}
    {he' : ∀ p, (e.withNumber g'.number).parent = some p → p.index < g'.entities.length}
    (hr : g.Renumbered g') (hindex : g.Indexed) (hindex' : g'.Indexed)
    (hfree : e.fullName ∉ g.fullNames) :
    (g.push e he).Renumbered (g'.push (e.withNumber g'.number) he') where
  entities := by
    show g'.entities ++ [_] = (g.entities ++ [e]).map (Entity.withNumber g'.number)
    rw [List.map_append, hr.entities]
    rfl
  index := by
    have hkey : e.fullName ∉ g.index.keys := hindex.keys ▸ hfree
    have hkey' : e.fullName ∉ g'.index.keys := by
      rw [hindex'.keys, hr.fullNames_eq]
      exact hfree
    show (g'.index.insert e.fullName g'.next).entries =
      (g.index.insert e.fullName g.next).entries.map _
    rw [Ordered.Map.entries_insert_of_notMem hkey, Ordered.Map.entries_insert_of_notMem hkey',
      List.map_append, hr.index, hr.next_eq]
    rfl

theorem adopt (hr : g.Renumbered g') (parent child : Handle) :
    (g.adopt parent child).Renumbered
      (g'.adopt (parent.withNumber g'.number) (child.withNumber g'.number)) where
  entities := by
    apply List.ext_getElem?
    intro i
    rw [List.getElem?_map, getElem?_entities_adopt, getElem?_entities_adopt, hr.entities,
      List.getElem?_map, Option.map_map, Option.map_map, number_adopt]
    congr 1
    funext e
    show (if parent.index = i then _ else _) =
      Entity.withNumber g'.number (if parent.index = i then _ else _)
    split
    · simp [Entity.withNumber]
    · rfl
  index := hr.index

theorem adoptAll (hr : g.Renumbered g') (child : Handle) (parents : List Handle) :
    (g.adoptAll child parents).Renumbered (g'.adoptAll (child.withNumber g'.number)
      (parents.map (Handle.withNumber g'.number))) := by
  induction parents generalizing g g' with
  | nil => exact hr
  | cons p parents ih => exact ih (hr.adopt p child)

end Renumbered

end Renumbered

end Graph

/-! ## Declarations in two such graphs -/

theorem Declaration.field_notMem_hosts (d : Declaration) (oneof : Option Handle) :
    Kind.field oneof ∉ d.hosts := by
  cases d with
  | member what home name => cases what <;> simp [hosts, Member.kind, Kind.hosts]
  | _ => simp [hosts]

theorem Declaration.withNumber_mem_hosts_iff (d : Declaration) {k : Kind} (number : Nat) :
    k.withNumber number ∈ d.hosts ↔ k ∈ d.hosts := by
  cases k with
  | field oneof => exact iff_of_false (d.field_notMem_hosts _) (d.field_notMem_hosts _)
  | _ => rfl

namespace Declaration.Matches

variable {n n' : Nat} {d d' : Declaration}

theorem name_eq (hd : d.Matches n n' d') : d'.name = d.name := by
  cases hd <;> rfl

theorem hosts_eq (hd : d.Matches n n' d') : d'.hosts = d.hosts := by
  cases hd <;> rfl

theorem exists_host (hd : d.Matches n n' d') {h : Handle} (hhost : d.host? = some h) :
    ∃ h', d'.host? = some h' ∧ h.Matches n n' h' := by
  cases hd with
  | package name => cases hhost
  | file hhome path | member what hhome name | oneofField hhome name =>
      obtain rfl := Option.some.inj hhost
      exact ⟨_, rfl, hhome⟩

theorem exists_host' (hd : d.Matches n n' d') {h' : Handle} (hhost : d'.host? = some h') :
    ∃ h, d.host? = some h ∧ h.Matches n n' h' := by
  cases hd with
  | package name => cases hhost
  | file hhome path | member what hhome name | oneofField hhome name =>
      obtain rfl := Option.some.inj hhost
      exact ⟨_, rfl, hhome⟩

theorem kind_eq (hd : d.Matches n n' d') (hown : ∀ h, d.host? = some h → h.graph = n) :
    d'.kind = d.kind.withNumber n' := by
  cases hd with
  | package name => rfl
  | file hhome path => rfl
  | member what hhome name => cases what <;> rfl
  | oneofField hgroup name =>
      rw [kind, kind, hgroup.eq_withNumber (hown _ rfl)]
      rfl

end Declaration.Matches

namespace Graph.Renumbered

variable {g g' : Graph} {d d' : Declaration}

theorem hosted (hr : g.Renumbered g') (hd : d.Matches g.number g'.number d')
    (hhosted : d.Hosted g g.handles) : d'.Hosted g' g'.handles := by
  intro h' hhost'
  obtain ⟨h, hhost, hh⟩ := hd.exists_host' hhost'
  obtain ⟨hmem, e, he, hkind⟩ := hhosted h hhost
  refine ⟨(hr.mem_handles_iff hh).2 hmem, e.withNumber g'.number, ?_, ?_⟩
  · rw [hr.get?_eq hh, he]
    rfl
  · rw [hd.hosts_eq]
    exact (d.withNumber_mem_hosts_iff g'.number).2 hkind

theorem kind_eq_of_hosted (hd : d.Matches g.number g'.number d')
    (hhosted : d.Hosted g g.handles) : d'.kind = d.kind.withNumber g'.number :=
  hd.kind_eq fun h hhost => graph_eq_of_mem_handles (hhosted h hhost).1

theorem fullName?_eq (hr : g.Renumbered g') (hg : g.WellFormed)
    (hd : d.Matches g.number g'.number d') : d'.fullName? g' = d.fullName? g := by
  cases hd with
  | package name => rfl
  | file hhome path => rfl
  | @member home home' what hhome name =>
      rw [Declaration.fullName?, Declaration.fullName?, hr.get?_eq hhome]
      cases hs : g.get? home with
      | none => rfl
      | some s =>
          show ((g'.scopeName? (s.withNumber g'.number)).bind _) = (g.scopeName? s).bind _
          rw [hr.scopeName?_eq hg hs]
  | @oneofField group group' hgroup name =>
      rw [Declaration.fullName?, Declaration.fullName?, hr.get?_eq hgroup]
      cases hs : g.get? group with
      | none => rfl
      | some s =>
          show ((s.parent.map (Handle.withNumber g'.number)).bind fun p => (g'.get? p).bind _) =
            s.parent.bind fun p => (g.get? p).bind _
          cases hp : s.parent with
          | none => rfl
          | some p =>
              obtain ⟨m, hm, -⟩ := (hg group s hs).parent p hp
              rw [Option.map_some, Option.bind_some, Option.bind_some, hr.get?_withNumber hm, hm]
              rfl

theorem admitted (hr : g.Renumbered g') (hg : g.WellFormed)
    (hd : d.Matches g.number g'.number d') (h : d.Admitted g g.handles) :
    d'.Admitted g' g'.handles where
  hosted := hr.hosted hd h.hosted
  named := hd.name_eq ▸ h.named
  free := by
    obtain ⟨fullName, hfull, hfree⟩ := h.free
    exact ⟨fullName, by rw [hr.fullName?_eq hg hd, hfull], by rwa [hr.fullNames_eq]⟩

theorem refusal (hr : g.Renumbered g') (hg : g.WellFormed)
    (hd : d.Matches g.number g'.number d') {x : DeclarationError} (h : d.Refusal g g.handles x) :
    ∃ x', d'.Refusal g' g'.handles x' ∧ AnswersMatch g.number g'.number (.error x) (.error x') := by
  cases h with
  | unknown hhost hissued =>
      obtain ⟨h', hhost', hh⟩ := hd.exists_host hhost
      exact ⟨_, .unknown hhost' (mt (hr.mem_handles_iff hh).1 hissued), .unknownEntity hh⟩
  | @misplaced h e hhost hissued he hkind =>
      obtain ⟨h', hhost', hh⟩ := hd.exists_host hhost
      have hget : g'.get? h' = some (e.withNumber g'.number) := by
        rw [hr.get?_eq hh, he]
        rfl
      have hmisplaced : (e.withNumber g'.number).kind ∉ d'.hosts := by
        rw [hd.hosts_eq]
        exact mt (d.withNumber_mem_hosts_iff g'.number).1 hkind
      refine ⟨_, .misplaced hhost' ((hr.mem_handles_iff hh).2 hissued) hget hmisplaced, ?_⟩
      have hown : ∀ h, d.host? = some h → h.graph = g.number := by
        rintro _ hhost₂
        obtain rfl := Option.some.inj (hhost.symm.trans hhost₂)
        exact graph_eq_of_mem_handles hissued
      rw [hd.kind_eq hown]
      exact .invalidParent d.kind e.kind
  | unnamed hhosted hname =>
      refine ⟨_, .unnamed (hr.hosted hd hhosted) (hd.name_eq.trans hname), ?_⟩
      rw [kind_eq_of_hosted hd hhosted]
      exact .emptyName d.kind
  | @taken fullName hhosted hname hfull htaken =>
      refine ⟨_, .taken (hr.hosted hd hhosted) (hd.name_eq ▸ hname) ?_ ?_, .duplicate fullName⟩
      · rw [hr.fullName?_eq hg hd, hfull]
      · rwa [hr.fullNames_eq]

/-- Declarations that match make the same entity, listed as a child of the same. -/
theorem entry (hr : g.Renumbered g') (hg : g.WellFormed)
    (hd : d.Matches g.number g'.number d') {e : Entity} {parents : List Handle}
    (h : d.Entry g e parents) :
    d'.Entry g' (e.withNumber g'.number) (parents.map (Handle.withNumber g'.number)) := by
  have hkind : ∀ {k : Kind} {s : Entity}, (∀ oneof, k ≠ .field oneof) → s.kind = k →
      (s.withNumber g'.number).kind = k :=
    fun hk hs => (Kind.withNumber_eq_iff hk g'.number).2 hs
  cases h with
  | package name =>
      cases hd
      exact .package name
  | file path hs hpackage =>
      cases hd with
      | file hhome _ =>
          rw [hhome.eq_withNumber (graph_eq_of_get? hs)]
          exact .file path (hr.get?_withNumber hs) (hkind (by simp) hpackage)
  | @member what parent package s outer name hs hhost hpackage houter =>
      cases hd with
      | member _ hhome _ =>
          have hmember : what.kind.withNumber g'.number = what.kind := by
            cases what <;> rfl
          have hhost' : (s.withNumber g'.number).kind ∈ what.kind.hosts :=
            ((Declaration.member what parent name).withNumber_mem_hosts_iff g'.number).2 hhost
          have hpackage' : (s.withNumber g'.number).package =
              some (package.withNumber g'.number) := by
            rw [Entity.withNumber, hpackage]
            rfl
          have hentry := Declaration.Entry.member name (hr.get?_withNumber hs) hhost' hpackage'
            ((hr.scopeName?_eq hg hs).trans houter)
          rw [hhome.eq_withNumber (graph_eq_of_get? hs), Entity.withNumber, hmember]
          exact hentry
  | @oneofField group message package s m name hs hgroup hparent hm hmessage hpackage =>
      cases hd with
      | oneofField hhome _ =>
          have hparent' : (s.withNumber g'.number).parent =
              some (message.withNumber g'.number) := by
            rw [Entity.withNumber, hparent]
            rfl
          have hpackage' : (m.withNumber g'.number).package =
              some (package.withNumber g'.number) := by
            rw [Entity.withNumber, hpackage]
            rfl
          have hentry := Declaration.Entry.oneofField name (hr.get?_withNumber hs)
            (hkind (by simp) hgroup) hparent' (hr.get?_withNumber hm)
            (hkind (by simp) hmessage) hpackage'
          rw [hhome.eq_withNumber (graph_eq_of_get? hs)]
          exact hentry

end Graph.Renumbered

/-! ## Runs under other numbers -/

namespace Builder

variable {b b' : Builder} {d d' : Declaration}

/-- One declaration is answered alike, and leaves the graphs alike. -/
theorem Valid.renumbered_declare (hb : b.Valid) (hb' : b'.Valid)
    (hr : b.graph.Renumbered b'.graph) (hd : d.Matches b.graph.number b'.graph.number d') :
    AnswersMatch b.graph.number b'.graph.number (b.declare d).1 (b'.declare d').1 ∧
      (b.declare d).2.graph.Renumbered (b'.declare d').2.graph := by
  rcases hb.admitted_or_refusal d with hadmitted | ⟨x, hrefusal⟩
  · obtain ⟨e, parents, he, hentry, hfree, hdeclare⟩ := hb.exists_declare_eq_ok hadmitted
    obtain ⟨e', parents', he', hentry', -, hdeclare'⟩ :=
      hb'.exists_declare_eq_ok (hr.admitted hb.wellFormed hd hadmitted)
    obtain ⟨rfl, rfl⟩ := hentry'.unique (hr.entry hb.wellFormed hd hentry)
    have hnext : b'.graph.next = b.graph.next.withNumber b'.graph.number := hr.next_eq
    rw [hdeclare, hdeclare', hnext]
    exact ⟨.issued _, (hr.push hb.indexed hb'.indexed hfree).adoptAll _ _⟩
  · obtain ⟨x', hrefusal', hanswers⟩ := hr.refusal hb.wellFormed hd hrefusal
    rw [hb.declare_eq_error hrefusal, hb'.declare_eq_error hrefusal']
    exact ⟨hanswers, hr⟩

theorem Valid.renumbered_run (hb : b.Valid) (hb' : b'.Valid) (hr : b.graph.Renumbered b'.graph)
    {ds ds' : List Declaration}
    (hds : List.Forall₂ (Declaration.Matches b.graph.number b'.graph.number) ds ds') :
    List.Forall₂ (AnswersMatch b.graph.number b'.graph.number) (b.replies ds) (b'.replies ds') ∧
      (b.run ds).graph.Renumbered (b'.run ds').graph := by
  induction ds generalizing b b' ds' with
  | nil =>
      cases hds
      exact ⟨.nil, hr⟩
  | cons d ds ih =>
      cases hds with
      | @cons _ d' _ ds' hd hds =>
          obtain ⟨hanswer, hr'⟩ := hb.renumbered_declare hb' hr hd
          rw [← hb.number_declare d, ← hb'.number_declare d'] at hds
          obtain ⟨hanswers, hrun⟩ := ih (hb.declare d) (hb'.declare d') hr' hds
          rw [hb.number_declare, hb'.number_declare] at hanswers
          exact ⟨.cons hanswer hanswers, hrun⟩

/-- Builders that are given the same declarations, but for the numbers in handles, reply the same
and end with the same graph, but for the numbers in handles. -/
theorem renumbered_run_start {n n' : Nat} {ds ds' : List Declaration}
    (hds : List.Forall₂ (Declaration.Matches n n') ds ds') :
    List.Forall₂ (AnswersMatch n n') ((start n).replies ds) ((start n').replies ds') ∧
      ((start n).run ds).graph.Renumbered ((start n').run ds').graph :=
  (valid_start n).renumbered_run (valid_start n') (Graph.renumbered_empty n n') hds

end Builder

end StubNames.Schema
