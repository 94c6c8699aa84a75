import StubNames.Proofs.Schema.Declaration
/-!
# Runs of declarations

A run makes declarations one after the other, whether they are refused or not, and goes on with
whatever each of them leaves.  The graph of a run is well formed and indexed, and the handles that
were issued are the handles of its entities, so a declaration in a run does what it does in a
well-formed graph.
-/

namespace StubNames.Schema

namespace Builder

def run (b : Builder) : List Declaration → Builder
  | [] => b
  | d :: ds => (b.declare d).2.run ds

theorem run_concat (b : Builder) (ds : List Declaration) (d : Declaration) :
    b.run (ds ++ [d]) = ((b.run ds).declare d).2 := by
  induction ds generalizing b with
  | nil => rfl
  | cons d' ds ih => exact ih (b.declare d').2

def issued (b : Builder) : List Declaration → List Handle
  | [] => []
  | d :: ds =>
    match b.declare d with
    | (.error _, b') => b'.issued ds
    | (.ok h, b') => h :: b'.issued ds

def replies (b : Builder) : List Declaration → List (Except DeclarationError Handle)
  | [] => []
  | d :: ds => (b.declare d).1 :: (b.declare d).2.replies ds

theorem replies_concat (b : Builder) (ds : List Declaration) (d : Declaration) :
    b.replies (ds ++ [d]) = b.replies ds ++ [((b.run ds).declare d).1] := by
  induction ds generalizing b with
  | nil => rfl
  | cons d' ds ih => exact congrArg _ (ih (b.declare d').2)

theorem mem_issued_iff {b : Builder} {ds : List Declaration} {h : Handle} :
    h ∈ b.issued ds ↔ .ok h ∈ b.replies ds := by
  induction ds generalizing b with
  | nil => exact iff_of_false List.not_mem_nil List.not_mem_nil
  | cons d ds ih =>
      rw [issued, replies, List.mem_cons]
      split
      · next hdeclare =>
          rw [hdeclare, ih]
          simp
      · next hdeclare =>
          rw [hdeclare, List.mem_cons, ih]
          simp

end Builder

namespace Graph

def handles (g : Graph) : List Handle :=
  (List.range g.size).map fun i => ⟨g.number, i⟩

theorem mem_handles_iff {g : Graph} {h : Handle} :
    h ∈ g.handles ↔ (g.get? h).isSome = true := by
  rw [isSome_get?_iff, handles, List.mem_map]
  constructor
  · rintro ⟨i, hi, rfl⟩
    exact ⟨rfl, List.mem_range.1 hi⟩
  · rintro ⟨hgraph, hindex⟩
    exact ⟨h.index, List.mem_range.2 hindex, by rw [← hgraph]⟩

theorem graph_eq_of_mem_handles {g : Graph} {h : Handle} (hmem : h ∈ g.handles) :
    h.graph = g.number :=
  (isSome_get?_iff.1 (mem_handles_iff.1 hmem)).1

theorem handles_push {g : Graph} {e : Entity}
    {he : ∀ p, e.parent = some p → p.index < g.entities.length} :
    (g.push e he).handles = g.handles ++ [g.next] := by
  rw [handles, size_push, number_push, List.range_succ, List.map_append]
  rfl

theorem handles_adoptAll {g : Graph} {child : Handle} {parents : List Handle} :
    (g.adoptAll child parents).handles = g.handles := by
  rw [handles, size_adoptAll, extends_adoptAll.number]
  rfl

end Graph

theorem Kind.ne_package_of_mem_hosts {k kind : Kind} (h : k ∈ kind.hosts) : k ≠ .package := by
  rintro rfl
  cases kind <;> simp [hosts] at h

theorem Kind.ne_oneofGroup_of_mem_hosts {k kind : Kind} (h : k ∈ kind.hosts) :
    k ≠ .oneofGroup := by
  rintro rfl
  cases kind <;> simp [hosts] at h

namespace Declaration.Entry

/-- What a declaration makes has its place among the entities that are already there. -/
theorem wellPlaced {g : Graph} {d : Declaration} {e : Entity} {parents : List Handle}
    (hg : g.WellFormed) (h : d.Entry g e parents) : g.WellPlaced g.next e := by
  cases h with
  | package name =>
      exact ⟨by simp, by simp, by simp, by simp, by simp⟩
  | @file home s path hs hkind =>
      refine ⟨by simp, by simp, by simp, ?_, by simp⟩
      rintro p ⟨rfl⟩
      exact ⟨s, hs, Graph.index_lt_of_get? hs, hkind⟩
  | @member what parent package s outer name hs hkind hpackage houter =>
      obtain ⟨p, hp, hlt, hpkind⟩ := (hg parent s hs).package package hpackage
      have hparent := Graph.index_lt_of_get? hs
      refine ⟨?_, ?_, ?_, ?_, ?_⟩
      · cases what <;> simp [Member.kind]
      · rintro _ ⟨rfl⟩
        exact ⟨s, hs, hparent, hkind, hpackage⟩
      · cases what <;> simp [Member.kind]
      · rintro _ ⟨rfl⟩
        exact ⟨p, hp, Graph.index_lt_of_get? hp, hpkind⟩
      · intro o ho
        cases what <;> simp [Member.kind] at ho
  | @oneofField group message package s m name hs hkind hparent hm hmessage hpackage =>
      obtain ⟨p, hp, -, hpkind⟩ := (hg message m hm).package package hpackage
      refine ⟨by simp, ?_, by simp, ?_, ?_⟩
      · rintro _ ⟨rfl⟩
        exact ⟨m, hm, Graph.index_lt_of_get? hm, by simp [hmessage, Kind.hosts], hpackage⟩
      · rintro _ ⟨rfl⟩
        exact ⟨p, hp, Graph.index_lt_of_get? hp, hpkind⟩
      · rintro _ ⟨rfl⟩
        exact ⟨s, hs, Graph.index_lt_of_get? hs, hkind, hparent⟩

end Declaration.Entry

namespace Builder

structure Valid (b : Builder) : Prop where
  wellFormed : b.graph.WellFormed
  indexed : b.graph.Indexed

theorem valid_start (number : Nat) : (start number).Valid :=
  ⟨Graph.wellFormed_empty number, Graph.indexed_empty number⟩

theorem Valid.declare_eq_error {b : Builder} (hb : b.Valid) {d : Declaration}
    {x : DeclarationError} (h : d.Refusal b.graph b.graph.handles x) :
    b.declare d = (.error x, b) :=
  declare_of_refusal hb.wellFormed hb.indexed (fun _ => Graph.mem_handles_iff) h

theorem Valid.exists_declare_eq_ok {b : Builder} (hb : b.Valid) {d : Declaration}
    (h : d.Admitted b.graph b.graph.handles) :
    ∃ e parents he, d.Entry b.graph e parents ∧ e.fullName ∉ b.graph.fullNames ∧
      b.declare d = (.ok b.graph.next, ⟨(b.graph.push e he).adoptAll b.graph.next parents⟩) :=
  declare_of_admitted hb.wellFormed hb.indexed h

theorem Valid.admitted_or_refusal {b : Builder} (hb : b.Valid) (d : Declaration) :
    d.Admitted b.graph b.graph.handles ∨ ∃ x, d.Refusal b.graph b.graph.handles x :=
  Builder.admitted_or_refusal hb.wellFormed fun _ => Graph.mem_handles_iff

/-- All that one declaration can do. -/
theorem Valid.declare_cases {b : Builder} (hb : b.Valid) (d : Declaration) :
    (∃ e, d.Refusal b.graph b.graph.handles e ∧ b.declare d = (.error e, b)) ∨
      ∃ e parents he, d.Entry b.graph e parents ∧ e.fullName ∉ b.graph.fullNames ∧
        b.declare d = (.ok b.graph.next, ⟨(b.graph.push e he).adoptAll b.graph.next parents⟩) := by
  rcases hb.admitted_or_refusal d with hadmitted | ⟨e, hrefusal⟩
  · exact .inr (hb.exists_declare_eq_ok hadmitted)
  · exact .inl ⟨e, hrefusal, hb.declare_eq_error hrefusal⟩

theorem Valid.declare {b : Builder} (hb : b.Valid) (d : Declaration) : (b.declare d).2.Valid := by
  rcases hb.declare_cases d with ⟨e, -, hdeclare⟩ | ⟨e, parents, he, hentry, hfree, hdeclare⟩
  · rw [hdeclare]
    exact hb
  · rw [hdeclare]
    have hplaced := hentry.wellPlaced hb.wellFormed
    exact ⟨(hb.wellFormed.push hplaced).adoptAll _ _, (hb.indexed.push hfree).adoptAll _ _⟩

theorem Valid.run {b : Builder} (hb : b.Valid) (ds : List Declaration) : (b.run ds).Valid := by
  induction ds generalizing b with
  | nil => exact hb
  | cons d ds ih => exact ih (hb.declare d)

theorem valid_run_start (number : Nat) (ds : List Declaration) :
    ((start number).run ds).Valid :=
  (valid_start number).run ds

theorem Valid.number_declare {b : Builder} (hb : b.Valid) (d : Declaration) :
    (b.declare d).2.graph.number = b.graph.number := by
  rcases hb.declare_cases d with ⟨x, -, hdeclare⟩ | ⟨e, parents, he, -, -, hdeclare⟩
  · rw [hdeclare]
  · rw [hdeclare]
    exact Graph.extends_adoptAll.number

theorem Valid.number_run {b : Builder} (hb : b.Valid) (ds : List Declaration) :
    (b.run ds).graph.number = b.graph.number := by
  induction ds generalizing b with
  | nil => rfl
  | cons d ds ih => exact (ih (hb.declare d)).trans (hb.number_declare d)

theorem number_run_start (number : Nat) (ds : List Declaration) :
    ((start number).run ds).graph.number = number :=
  (valid_start number).number_run ds

theorem Valid.handles_run {b : Builder} (hb : b.Valid) (ds : List Declaration) :
    (b.run ds).graph.handles = b.graph.handles ++ b.issued ds := by
  induction ds generalizing b with
  | nil => rw [issued, List.append_nil]; rfl
  | cons d ds ih =>
      have hnext := ih (hb.declare d)
      rcases hb.declare_cases d with ⟨e, -, hdeclare⟩ | ⟨e, parents, he, -, -, hdeclare⟩
      · rw [hdeclare] at hnext
        rw [Builder.run, issued, hdeclare, hnext]
      · rw [hdeclare] at hnext
        rw [Builder.run, issued, hdeclare, hnext, Graph.handles_adoptAll, Graph.handles_push]
        simp

theorem issued_start (number : Nat) (ds : List Declaration) :
    (start number).issued ds = ((start number).run ds).graph.handles := by
  rw [(valid_start number).handles_run ds]
  rfl

/-- At any point of a run a declaration is made if the graph admits it, and otherwise it is
refused for the first reason that there is and leaves the builder as it was. -/
theorem declare_run_iff (number : Nat) (before : List Declaration) (d : Declaration) :
    let b := (start number).run before
    let issued := (start number).issued before
    ((∃ h b', b.declare d = (.ok h, b')) ↔ d.Admitted b.graph issued) ∧
      ∀ e b', b.declare d = (.error e, b') ↔ d.Refusal b.graph issued e ∧ b' = b := by
  intro b issued
  have hb : b.Valid := valid_run_start number before
  have hissued : ∀ h, h ∈ issued ↔ (b.graph.get? h).isSome = true := by
    intro h
    rw [← Graph.mem_handles_iff, ← issued_start]
  have hmade : d.Admitted b.graph issued → ∃ h b', b.declare d = (.ok h, b') := by
    intro hadmitted
    obtain ⟨e, parents, he, -, -, hdeclare⟩ :=
      declare_of_admitted hb.wellFormed hb.indexed hadmitted
    exact ⟨_, _, hdeclare⟩
  have hrefused : ∀ e, d.Refusal b.graph issued e → b.declare d = (.error e, b) :=
    fun e => declare_of_refusal hb.wellFormed hb.indexed hissued
  have hcases := admitted_or_refusal (d := d) hb.wellFormed hissued
  -- one of the two always applies, and the outcome tells which
  refine ⟨⟨?_, hmade⟩, fun e b' => ⟨?_, ?_⟩⟩
  · rintro ⟨h, b', hok⟩
    rcases hcases with hadmitted | ⟨e, hrefusal⟩
    · exact hadmitted
    · rw [hrefused e hrefusal] at hok
      cases hok
  · intro herror
    rcases hcases with hadmitted | ⟨e', hrefusal⟩
    · obtain ⟨h, b'', hok⟩ := hmade hadmitted
      rw [hok] at herror
      cases herror
    · rw [hrefused e' hrefusal] at herror
      cases herror
      exact ⟨hrefusal, rfl⟩
  · rintro ⟨hrefusal, rfl⟩
    exact hrefused e hrefusal

end Builder

end StubNames.Schema
