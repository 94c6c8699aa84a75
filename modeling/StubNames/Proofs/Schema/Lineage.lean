import StubNames.Proofs.Schema.Run
/-!
# Ancestors

Walking up from an entity ends because parents are declared first.  In a well-formed graph the
walk from anything but a file or a package ends in a file.
-/

namespace StubNames.Schema

namespace Graph

variable {g : Graph} {h p : Handle} {e : Entity}

theorem ancestors_eq (he : g.get? h = some e) :
    g.ancestors h = e.parent.elim [] fun p => p :: g.ancestors p := by
  rw [ancestors]
  split
  · next hnone =>
      rw [he] at hnone
      cases hnone
  · next e' he' =>
      obtain rfl : e = e' := Option.some.inj (he.symm.trans he')
      split
      · next hp => rw [hp, Option.elim_none]
      · next p hp => rw [hp, Option.elim_some]

theorem ancestors_of_parent_none (he : g.get? h = some e) (hp : e.parent = none) :
    g.ancestors h = [] := by
  rw [ancestors_eq he, hp, Option.elim_none]

theorem ancestors_of_parent (he : g.get? h = some e) (hp : e.parent = some p) :
    g.ancestors h = p :: g.ancestors p := by
  rw [ancestors_eq he, hp, Option.elim_some]

/-! ## The walk goes down in the order of declaration -/

theorem pairwise_ancestors (g : Graph) (h : Handle) :
    (h :: g.ancestors h).Pairwise fun a b => b.index < a.index := by
  fun_induction g.ancestors h with
  | case1 h hnone => exact List.pairwise_singleton _ _
  | case2 h e he hp => exact List.pairwise_singleton _ _
  | case3 h e he p hp ih =>
      have hlt : p.index < h.index := parent_lt_of_get? he hp
      refine List.pairwise_cons.2 ⟨?_, ih⟩
      intro a ha
      rcases List.mem_cons.1 ha with rfl | ha
      · exact hlt
      · exact Nat.lt_trans (List.rel_of_pairwise_cons ih ha) hlt

theorem length_ancestors_le (g : Graph) (h : Handle) : (g.ancestors h).length ≤ h.index := by
  fun_induction g.ancestors h with
  | case1 h hnone => exact Nat.zero_le _
  | case2 h e he hp => exact Nat.zero_le _
  | case3 h e he p hp ih =>
      have hlt : p.index < h.index := parent_lt_of_get? he hp
      rw [List.length_cons]
      omega

/-! ## Where the walk ends -/

theorem WellFormed.ancestors_of_file (hg : g.WellFormed) (he : g.get? h = some e)
    (hfile : e.kind = .file) : g.ancestors h = [] :=
  ancestors_of_parent_none he ((hg h e he).parent_eq_none.2 (.inl hfile))

theorem WellFormed.getLast?_ancestors (hg : g.WellFormed) {h : Handle} {e : Entity}
    (he : g.get? h = some e) (hfile : e.kind ≠ .file) (hpackage : e.kind ≠ .package) :
    ∃ root f, (g.ancestors h).getLast? = some root ∧ g.get? root = some f ∧ f.kind = .file := by
  obtain ⟨p, s, hp, hs, hkind⟩ := hg.exists_parent he hfile hpackage
  rw [ancestors_of_parent he hp]
  by_cases hsfile : s.kind = .file
  · rw [hg.ancestors_of_file hs hsfile]
    exact ⟨p, s, rfl, hs, hsfile⟩
  · -- the parent is again neither a file nor a package, and it comes before
    obtain ⟨root, f, hlast, hroot, hf⟩ :=
      hg.getLast?_ancestors hs hsfile (Kind.ne_package_of_mem_hosts hkind)
    exact ⟨root, f, by rw [List.getLast?_cons, hlast]; rfl, hroot, hf⟩
termination_by h.index
decreasing_by exact parent_lt_of_get? he hp

/-- Whatever encloses an entity is an entity of the same graph, of a kind that encloses others. -/
theorem WellFormed.exists_of_mem_ancestors (hg : g.WellFormed) {a : Handle}
    (ha : a ∈ g.ancestors h) : ∃ s k, g.get? a = some s ∧ s.kind ∈ Kind.hosts k := by
  fun_induction g.ancestors h with
  | case1 h hnone => cases ha
  | case2 h e he hp => cases ha
  | case3 h e he p hp ih =>
      rcases List.mem_cons.1 ha with rfl | ha
      · obtain ⟨s, hs, -, hkind, -⟩ := (hg h e he).parent a hp
        exact ⟨s, e.kind, hs, hkind⟩
      · exact ih ha

/-! ## Lineages -/

def lineage (g : Graph) (h : Handle) : List Entity :=
  (h :: g.ancestors h).filterMap g.get?

theorem lineage_eq_cons (he : g.get? h = some e) :
    g.lineage h = e :: (g.ancestors h).filterMap g.get? :=
  List.filterMap_cons_some he

theorem lineage_of_parent_none (he : g.get? h = some e) (hp : e.parent = none) :
    g.lineage h = [e] := by
  rw [lineage_eq_cons he, ancestors_of_parent_none he hp]
  rfl

theorem lineage_of_parent (he : g.get? h = some e) (hp : e.parent = some p) :
    g.lineage h = e :: g.lineage p := by
  rw [lineage_eq_cons he, ancestors_of_parent he hp]
  rfl

end Graph

/-- Whatever the declarations of a run, each of them refused or not, all entities have their place
and every walk up is finite, goes strictly down in the order of declaration and ends in a file. -/
theorem Builder.wellFormed_run (number : Nat) (ds : List Declaration) :
    let b := (start number).run ds
    b.graph.WellFormed ∧ b.build.WellFormed ∧ ∀ h,
      (h :: b.build.ancestors h).Pairwise (fun x y => y.index < x.index) ∧
      (b.build.ancestors h).length ≤ h.index ∧
      ∀ e, b.build.get? h = some e → e.kind ≠ .file → e.kind ≠ .package →
        ∃ root f, (b.build.ancestors h).getLast? = some root ∧ b.build.get? root = some f ∧
          f.kind = .file := by
  intro b
  have hb : b.graph.WellFormed := (valid_run_start number ds).wellFormed
  refine ⟨hb, hb, fun h => ⟨b.graph.pairwise_ancestors h, b.graph.length_ancestors_le h, ?_⟩⟩
  intro e he hfile hpackage
  exact hb.getLast?_ancestors he hfile hpackage

def nestedDeclarations : List Declaration :=
  [.package "demo", .file ⟨1, 0⟩ "demo.proto", .member .message ⟨1, 1⟩ "outer",
    .member .message ⟨1, 2⟩ "inner", .member .enumeration ⟨1, 3⟩ "color",
    .member .enumValue ⟨1, 4⟩ "RED"]

theorem Builder.wellFormed_run_nested :
    let b := (start 1).run nestedDeclarations
    ∃ root f, (b.build.ancestors ⟨1, 5⟩).getLast? = some root ∧ b.build.get? root = some f ∧
      f.kind = .file := by
  intro b
  have hred : b.build.get? ⟨1, 5⟩ = some ⟨.enumValue, "RED", ".demo.outer.inner.color.RED",
      some ⟨1, 4⟩, some ⟨1, 0⟩, []⟩ := by
    decide +kernel
  obtain ⟨-, -, hlineage⟩ := wellFormed_run 1 nestedDeclarations
  obtain ⟨-, -, hlast⟩ := hlineage ⟨1, 5⟩
  exact hlast _ hred (by decide) (by decide)

end StubNames.Schema
