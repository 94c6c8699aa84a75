import StubNames.Proofs.Schema.FullName
import StubNames.Proofs.Schema.Lineage
/-!
# The catalogue of a graph

The arena and the index of a graph grow side by side, and the duplicate check keeps them in step:
each entity is indexed once, under its own full name, at its own position.  So looking a name up,
listing the index and reading the arena all tell the same.  A full name itself spells out where an
entity is: the package, then the declared names on the way down to it, files left out.
-/

namespace StubNames.Schema

namespace Graph

variable {g : Graph} {h p : Handle} {e : Entity}

def declared (g : Graph) : List (Handle × Entity) :=
  g.handles.zip g.entities

theorem length_handles : g.handles.length = g.entities.length := by
  simp [handles, size]

theorem getElem?_declared_eq_some_iff {i : Nat} :
    g.declared[i]? = some (h, e) ↔ h = ⟨g.number, i⟩ ∧ g.entities[i]? = some e := by
  rw [declared, List.getElem?_zip_eq_some, handles, List.getElem?_map, Option.map_eq_some_iff]
  constructor
  · rintro ⟨⟨j, hj, rfl⟩, he⟩
    obtain ⟨hlt, rfl⟩ := List.getElem?_eq_some_iff.1 hj
    exact ⟨by rw [List.getElem_range], he⟩
  · rintro ⟨rfl, he⟩
    have hi : i < g.size := (List.getElem?_eq_some_iff.1 he).1
    exact ⟨⟨i, List.getElem?_range hi, rfl⟩, he⟩

theorem mem_declared_iff : (h, e) ∈ g.declared ↔ g.get? h = some e := by
  rw [List.mem_iff_getElem?]
  constructor
  · rintro ⟨i, hi⟩
    obtain ⟨rfl, he⟩ := getElem?_declared_eq_some_iff.1 hi
    rw [get?, if_pos rfl, he]
  · intro he
    have hgraph : h.graph = g.number := graph_eq_of_get? he
    exact ⟨h.index, getElem?_declared_eq_some_iff.2 ⟨by rw [← hgraph], getElem?_of_get? he⟩⟩

theorem map_fullName_declared : (g.declared.map fun p => p.2.fullName) = g.fullNames := by
  have hentities : g.declared.map Prod.snd = g.entities :=
    List.map_snd_zip (Nat.le_of_eq length_handles.symm)
  calc
    (g.declared.map fun p => p.2.fullName) = (g.declared.map Prod.snd).map Entity.fullName := by
      rw [List.map_map]
      rfl
    _ = g.fullNames := by rw [hentities, fullNames]

theorem mem_fullNames_iff {s : String} :
    s ∈ g.fullNames ↔ ∃ h e, g.get? h = some e ∧ e.fullName = s := by
  rw [← map_fullName_declared, List.mem_map]
  constructor
  · rintro ⟨⟨h, e⟩, hmem, rfl⟩
    exact ⟨h, e, mem_declared_iff.1 hmem, rfl⟩
  · rintro ⟨h, e, he, rfl⟩
    exact ⟨(h, e), mem_declared_iff.2 he, rfl⟩

/-! ## Looking up and listing -/

theorem Indexed.getElem?_entries (hg : g.Indexed) {i : Nat} (he : g.entities[i]? = some e) :
    g.index.entries[i]? = some (e.fullName, ⟨g.number, i⟩) := by
  rw [hg, List.getElem?_map, List.getElem?_zipIdx, fullNames, List.getElem?_map, he]
  simp

theorem Indexed.size_index (hg : g.Indexed) : g.index.size = g.size := by
  rw [Ordered.Map.size, hg]
  simp [fullNames, size]

theorem Indexed.mem_entries_iff (hg : g.Indexed) {s : String} :
    (s, h) ∈ g.index.entries ↔ ∃ e, g.get? h = some e ∧ e.fullName = s := by
  rw [List.mem_iff_getElem?]
  constructor
  · rintro ⟨i, hi⟩
    have hlt : i < g.entities.length := by
      rw [← show g.index.entries.length = g.entities.length from hg.size_index]
      exact (List.getElem?_eq_some_iff.1 hi).1
    have he := List.getElem?_eq_getElem hlt
    rw [hg.getElem?_entries he, Option.some.injEq, Prod.mk.injEq] at hi
    obtain ⟨hs, rfl⟩ := hi
    exact ⟨g.entities[i], by rw [get?, if_pos rfl, he], hs⟩
  · rintro ⟨e, he, rfl⟩
    have hgraph : h.graph = g.number := graph_eq_of_get? he
    exact ⟨h.index, by rw [hg.getElem?_entries (getElem?_of_get? he), ← hgraph]⟩

theorem Indexed.lookup_eq_some_iff (hg : g.Indexed) {s : String} :
    g.lookup s = some h ↔ ∃ e, g.get? h = some e ∧ e.fullName = s := by
  rw [lookup, Ordered.Map.get?_eq_some_iff, hg.mem_entries_iff]

theorem Indexed.values_index (hg : g.Indexed) : g.index.values = g.handles := by
  have hlength : g.fullNames.length = g.size := List.length_map _
  rw [Ordered.Map.values, hg, handles, ← hlength, List.range_eq_range', ← List.zipIdx_map_snd,
    List.map_map, List.map_map]
  rfl

theorem filterMap_entity_eq_zip (number : Nat) (entities rest : List Entity) :
    ((List.range' entities.length rest.length).map fun i => (⟨number, i⟩ : Handle)).filterMap
        (fun h => (entities ++ rest)[h.index]?.map fun e => (h, e)) =
      ((List.range' entities.length rest.length).map fun i => ⟨number, i⟩).zip rest := by
  induction rest generalizing entities with
  | nil => rfl
  | cons e rest ih =>
      have hrest := ih (entities ++ [e])
      rw [List.length_append, List.append_assoc, List.singleton_append] at hrest
      rw [List.length_cons, List.range'_succ, List.map_cons, List.filterMap_cons_some (b := (_, e))]
      · exact congrArg _ hrest
      · simp

/-- The index lists every entity, each once and in the order of declaration. -/
theorem Indexed.toList_eq_declared (hg : g.Indexed) : g.toList = g.declared := by
  rw [toList, hg.values_index, declared, handles, List.range_eq_range']
  exact filterMap_entity_eq_zip g.number [] g.entities

/-! ## Full names along lineages -/

/-- A full name that goes on with the declared names of a chain of entities. -/
def dottedName (outer : String) (chain : List Entity) : String :=
  chain.foldl (fun name e => name ++ "." ++ e.name) outer

theorem dottedName_concat (outer : String) (chain : List Entity) (e : Entity) :
    dottedName outer (chain ++ [e]) = dottedName outer chain ++ "." ++ e.name := by
  rw [dottedName, List.foldl_append]
  rfl

/-- The entities on the way down to an entity, from right below the file to the entity itself. -/
def belowFile (g : Graph) (h : Handle) : List Entity :=
  (g.lineage h).reverse.filter fun e => e.kind != .file

theorem belowFile_of_parent (he : g.get? h = some e) (hp : e.parent = some p)
    (hfile : e.kind ≠ .file) : g.belowFile h = g.belowFile p ++ [e] := by
  rw [belowFile, lineage_of_parent he hp, List.reverse_cons, List.filter_append]
  simp [belowFile, hfile]

theorem WellFormed.belowFile_of_file (hg : g.WellFormed) (he : g.get? h = some e)
    (hfile : e.kind = .file) : g.belowFile h = [] := by
  have hp : e.parent = none := (hg h e he).parent_eq_none.2 (.inl hfile)
  rw [belowFile, lineage_of_parent_none he hp]
  simp [hfile]

theorem WellNamed.fullName_eq_dottedName (hnamed : g.WellNamed) (hg : g.WellFormed) {h : Handle}
    {e : Entity} (he : g.get? h = some e) (hfile : e.kind ≠ .file) (hpackage : e.kind ≠ .package) :
    ∃ package q, e.package = some package ∧ g.get? package = some q ∧
      e.fullName = dottedName q.fullName (g.belowFile h) := by
  obtain ⟨p, s, hp, hs, hhost, hshared, hcases⟩ := hnamed.fullName_cases hg he hfile hpackage
  rw [belowFile_of_parent he hp hfile]
  rcases hcases with ⟨hsfile, package, q, hsome, hget, hfull⟩ | ⟨hsfile, hfull⟩
  · refine ⟨package, q, hsome, hget, ?_⟩
    rw [hg.belowFile_of_file hs hsfile, hfull, dottedName_concat]
    rfl
  · obtain ⟨package, q, hsome, hget, hname⟩ :=
      hnamed.fullName_eq_dottedName hg hs hsfile (Kind.ne_package_of_mem_hosts hhost)
    refine ⟨package, q, hshared.symm.trans hsome, hget, ?_⟩
    rw [dottedName_concat, ← hname, hfull]
termination_by h.index
decreasing_by exact parent_lt_of_get? he hp

/-! ## The whole catalogue -/

structure SpelledOut (g : Graph) (h : Handle) (e : Entity) : Prop where
  package : e.kind = .package → e.fullName = "." ++ e.name
  file : e.kind = .file → e.fullName = e.name
  inside : e.kind ≠ .file → e.kind ≠ .package → ∃ package q, e.package = some package ∧
    g.get? package = some q ∧ e.fullName = dottedName q.fullName (g.belowFile h)
  /-- No oneof group is on the way down to an entity. -/
  ungrouped : ∀ a ∈ g.ancestors h, ∃ s, g.get? a = some s ∧ s.kind ≠ .oneofGroup

/-- The arena and the index tell of the same entities, each once and in the same order. -/
structure Catalogued (g : Graph) : Prop where
  size_index : g.index.size = g.size
  entry : ∀ (i : Nat) (e : Entity), g.entities[i]? = some e →
    g.index.entries[i]? = some (e.fullName, ⟨g.number, i⟩)
  nodup_fullNames : g.fullNames.Nodup
  lookup : ∀ s h, g.lookup s = some h ↔ ∃ e, g.get? h = some e ∧ e.fullName = s
  toList : g.toList = g.handles.zip g.entities
  own : ∀ p ∈ g.toList, g.get? p.1 = some p.2
  spelledOut : ∀ h e, g.get? h = some e → g.SpelledOut h e

theorem WellFormed.catalogued (hg : g.WellFormed) (hindex : g.Indexed) (hnamed : g.WellNamed) :
    g.Catalogued where
  size_index := hindex.size_index
  entry _ _ he := hindex.getElem?_entries he
  nodup_fullNames := hindex.nodup_fullNames
  lookup _ _ := hindex.lookup_eq_some_iff
  toList := hindex.toList_eq_declared
  own p hp := by
    rw [hindex.toList_eq_declared] at hp
    exact mem_declared_iff.1 hp
  spelledOut h e he := by
    have hnames := hnamed h e he
    refine ⟨hnames.package, hnames.file, hnamed.fullName_eq_dottedName hg he, fun a ha => ?_⟩
    obtain ⟨s, k, hs, hkind⟩ := hg.exists_of_mem_ancestors ha
    exact ⟨s, hs, Kind.ne_oneofGroup_of_mem_hosts hkind⟩

end Graph

/-- Whatever the declarations of a run, each of them refused or not, the graph has the handles in
the order in which they were issued and is catalogued, at every point of the run and once built. -/
theorem Builder.catalogued_run (number : Nat) (ds : List Declaration) :
    let b := (start number).run ds
    b.graph.handles = (start number).issued ds ∧ b.graph.Catalogued ∧ b.build.Catalogued := by
  intro b
  have hb : b.Valid := valid_run_start number ds
  have hnamed : b.graph.WellNamed := wellNamed_run_start number ds
  have hcatalogued : b.graph.Catalogued := hb.wellFormed.catalogued hb.indexed hnamed
  exact ⟨(issued_start number ds).symm, hcatalogued, hcatalogued⟩

end StubNames.Schema
