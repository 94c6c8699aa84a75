import StubNames.Toml.Document
/-!
# Tables in the order of their keys

A document lists the entries of each of its tables in the strict order of their names, at any depth.
So no name stands in a table twice.  Values are read by nested readers and put into tables one by
one; each step keeps the order.
-/

namespace StubNames.Toml

def Increasing {α : Type} (entries : List (Key × α)) : Prop :=
  entries.Pairwise fun a b => a.1.name < b.1.name

/-- Whether all tables in a node list their entries in order. -/
inductive Node.IsSorted : Node → Prop where
  | scalar {place : Stretch} {value : Scalar} : IsSorted (.scalar place value)
  | array {place : Stretch} {ofTables : Bool} {items : List Node}
      (hitems : ∀ item ∈ items, item.IsSorted) : IsSorted (.array place ofTables items)
  | table {content : Table Node} (hentries : Increasing content.entries)
      (hvalues : ∀ e ∈ content.entries, e.2.IsSorted) : IsSorted (.table content)

def Table.IsSorted (t : Table Node) : Prop :=
  Increasing t.entries ∧ ∀ e ∈ t.entries, e.2.IsSorted

theorem Node.isSorted_table_iff {t : Table Node} : (Node.table t).IsSorted ↔ t.IsSorted := by
  constructor
  · intro h
    cases h with
    | table hentries hvalues => exact ⟨hentries, hvalues⟩
  · rintro ⟨hentries, hvalues⟩
    exact .table hentries hvalues

theorem Node.IsSorted.forall_mem {place : Stretch} {ofTables : Bool} {items : List Node}
    (h : (Node.array place ofTables items).IsSorted) : ∀ item ∈ items, item.IsSorted := by
  cases h with
  | array hitems => exact hitems

namespace Table

/-! ## Changing one entry -/

section Entries

variable {α : Type} {name : String} {change : Option (Key × α) → Option (Key × α)}
  {entries entries' : List (Key × α)}

/-- An entry afterwards was there before, or is what the change made of what stood there. -/
theorem mem_of_alterEntries (h : alterEntries name change entries = some entries')
    {e : Key × α} (he : e ∈ entries') :
    e ∈ entries ∨ ∃ old, change old = some e ∧ ∀ o ∈ old, o ∈ entries ∧ o.1.name = name := by
  induction entries generalizing entries' with
  | nil =>
      obtain ⟨new, hnew, rfl⟩ := Option.map_eq_some_iff.1 h
      rw [List.mem_singleton.1 he]
      exact .inr ⟨none, hnew, nofun⟩
  | cons first rest ih =>
      rw [alterEntries] at h
      split at h
      · next hname =>
          obtain ⟨new, hnew, rfl⟩ := Option.map_eq_some_iff.1 h
          rcases List.mem_cons.1 he with rfl | he
          · refine .inr ⟨some first, hnew, fun o ho => ?_⟩
            obtain rfl := Option.some.inj ho
            exact ⟨List.mem_cons_self, hname⟩
          · exact .inl (List.mem_cons_of_mem _ he)
      · split at h
        · obtain ⟨new, hnew, rfl⟩ := Option.map_eq_some_iff.1 h
          rcases List.mem_cons.1 he with rfl | he
          · exact .inr ⟨none, hnew, nofun⟩
          · exact .inl he
        · obtain ⟨rest', hrest, rfl⟩ := Option.map_eq_some_iff.1 h
          rcases List.mem_cons.1 he with rfl | he
          · exact .inl List.mem_cons_self
          · rcases ih hrest he with hmem | ⟨old, hnew, hold⟩
            · exact .inl (List.mem_cons_of_mem _ hmem)
            · refine .inr ⟨old, hnew, fun o ho => ?_⟩
              exact ⟨List.mem_cons_of_mem _ (hold o ho).1, (hold o ho).2⟩

theorem increasing_alterEntries
    (hchange : ∀ old new, (∀ o ∈ old, o ∈ entries ∧ o.1.name = name) →
      change old = some new → new.1.name = name)
    (h : alterEntries name change entries = some entries') (hentries : Increasing entries) :
    Increasing entries' := by
  induction entries generalizing entries' with
  | nil =>
      obtain ⟨new, -, rfl⟩ := Option.map_eq_some_iff.1 h
      exact List.pairwise_singleton _ _
  | cons first rest ih =>
      obtain ⟨hfirst, hrest⟩ := List.pairwise_cons.1 hentries
      rw [alterEntries] at h
      split at h
      · next hname =>
          obtain ⟨new, hnew, rfl⟩ := Option.map_eq_some_iff.1 h
          have hsame : new.1.name = name := by
            refine hchange _ _ (fun o ho => ?_) hnew
            obtain rfl := Option.some.inj ho
            exact ⟨List.mem_cons_self, hname⟩
          refine List.pairwise_cons.2 ⟨fun e he => ?_, hrest⟩
          rw [hsame, ← hname]
          exact hfirst e he
      · next hname =>
          split at h
          · next hlt =>
              obtain ⟨new, hnew, rfl⟩ := Option.map_eq_some_iff.1 h
              have hsame : new.1.name = name := hchange none new nofun hnew
              refine List.pairwise_cons.2 ⟨fun e he => ?_, hentries⟩
              rw [hsame]
              rcases List.mem_cons.1 he with rfl | he
              · exact hlt
              · exact String.lt_trans hlt (hfirst e he)
          · next hnot =>
              -- the change happens behind the first entry, whose name comes before
              have hlt : first.1.name < name := Std.lt_of_le_of_ne (String.not_lt.1 hnot) hname
              have hbehind (old : Option (Key × α)) (new : Key × α)
                  (hold : ∀ o ∈ old, o ∈ rest ∧ o.1.name = name) (hnew : change old = some new) :
                  new.1.name = name := by
                refine hchange old new (fun o ho => ?_) hnew
                exact ⟨List.mem_cons_of_mem _ (hold o ho).1, (hold o ho).2⟩
              obtain ⟨rest', hrest', rfl⟩ := Option.map_eq_some_iff.1 h
              refine List.pairwise_cons.2 ⟨fun e he => ?_, ih hbehind hrest' hrest⟩
              rcases mem_of_alterEntries hrest' he with hmem | ⟨old, hnew, hold⟩
              · exact hfirst e hmem
              · rw [hbehind old e hold hnew]
                exact hlt

end Entries

variable {t t' : Table Node}

theorem isSorted_empty (place : Stretch) (origin : Origin) : (empty place origin).IsSorted :=
  ⟨List.Pairwise.nil, nofun⟩

/-- An entry may be changed if it stays under its name and its node stays in order. -/
theorem IsSorted.alter {name : String} {change : Option (Key × Node) → Option (Key × Node)}
    (ht : t.IsSorted)
    (hchange : ∀ old new, (∀ o ∈ old, o.1.name = name ∧ o.2.IsSorted) →
      change old = some new → new.1.name = name ∧ new.2.IsSorted)
    (h : t.alter name change = some t') : t'.IsSorted := by
  obtain ⟨entries', hentries', rfl⟩ := Option.map_eq_some_iff.1 h
  have hmade (old : Option (Key × Node)) (new : Key × Node)
      (hold : ∀ o ∈ old, o ∈ t.entries ∧ o.1.name = name) (hnew : change old = some new) :
      new.1.name = name ∧ new.2.IsSorted := by
    refine hchange old new (fun o ho => ?_) hnew
    exact ⟨(hold o ho).2, ht.2 o (hold o ho).1⟩
  constructor
  · exact increasing_alterEntries (fun old new hold hnew => (hmade old new hold hnew).1)
      hentries' ht.1
  · intro e he
    rcases mem_of_alterEntries hentries' he with hmem | ⟨old, hnew, hold⟩
    · exact ht.2 e hmem
    · exact (hmade old e hold hnew).2

/-! ## Assignments and headers -/

def KeepsSorted (change : Table Node → Option (Table Node)) : Prop :=
  ∀ t t', t.IsSorted → change t = some t' → t'.IsSorted

theorem forall_isSorted_alterLast {change : Table Node → Option (Table Node)}
    (hchange : KeepsSorted change) {items items' : List Node}
    (hitems : ∀ item ∈ items, item.IsSorted) (h : alterLast change items = some items') :
    ∀ item ∈ items', item.IsSorted := by
  induction items generalizing items' with
  | nil => cases h
  | cons first rest ih =>
      have hrest : ∀ item ∈ rest, item.IsSorted :=
        fun item hitem => hitems item (List.mem_cons_of_mem _ hitem)
      unfold alterLast at h
      split at h
      · cases h
      · next t heq =>
          obtain ⟨rfl, rfl⟩ := List.cons.inj heq
          obtain ⟨t', ht', rfl⟩ := Option.map_eq_some_iff.1 h
          have ht : t.IsSorted := Node.isSorted_table_iff.1 (hitems _ List.mem_cons_self)
          intro item hitem
          rw [List.mem_singleton.1 hitem, Node.isSorted_table_iff]
          exact hchange t t' ht ht'
      · cases h
      · next heq =>
          obtain ⟨rfl, rfl⟩ := List.cons.inj heq
          obtain ⟨rest', hrest', rfl⟩ := Option.map_eq_some_iff.1 h
          intro item hitem
          rcases List.mem_cons.1 hitem with rfl | hitem
          · exact hitems _ List.mem_cons_self
          · exact ih hrest hrest' item hitem

theorem keepsSorted_within (origin : Origin) {change : Table Node → Option (Table Node)}
    (hchange : KeepsSorted change) (path : List Key) :
    KeepsSorted (within origin change path) := by
  induction path with
  | nil => exact hchange
  | cons key path ih =>
      intro t t' ht h
      refine ht.alter (fun old new hold hnew => ?_) h
      split at hnew
      · obtain ⟨made, hmade, rfl⟩ := Option.map_eq_some_iff.1 hnew
        exact ⟨rfl, Node.isSorted_table_iff.2 (ih _ _ (isSorted_empty _ _) hmade)⟩
      · next k content =>
          obtain ⟨hname, hcontent⟩ := hold _ rfl
          split at hnew
          · cases hnew
          · obtain ⟨made, hmade, rfl⟩ := Option.map_eq_some_iff.1 hnew
            have hsorted := ih _ _ (Node.isSorted_table_iff.1 hcontent) hmade
            exact ⟨hname, Node.isSorted_table_iff.2 hsorted⟩
      · next k place items =>
          obtain ⟨hname, hitems⟩ := hold _ rfl
          obtain ⟨items', hitems', rfl⟩ := Option.map_eq_some_iff.1 hnew
          exact ⟨hname, .array (forall_isSorted_alterLast ih hitems.forall_mem hitems')⟩
      · cases hnew

theorem keepsSorted_add (key : Key) {value : Node} (hvalue : value.IsSorted) :
    KeepsSorted fun t => t.add key value := by
  intro t t' ht h
  refine ht.alter (fun old new hold hnew => ?_) h
  split at hnew
  · cases hnew
    exact ⟨rfl, hvalue⟩
  · cases hnew

theorem keepsSorted_assign {a : Assignment} (ha : a.value.IsSorted) :
    KeepsSorted fun t => t.assign a := by
  apply keepsSorted_within
  intro t t' ht h
  dsimp only at h
  split at h
  · cases h
  · exact keepsSorted_add a.key ha t t' ht h

/-- Steps that each keep a table in order keep it in order one after another. -/
theorem keepsSorted_foldlM {α : Type} {step : Table Node → α → Option (Table Node)} {as : List α}
    (hstep : ∀ a ∈ as, KeepsSorted fun t => step t a) :
    KeepsSorted fun t => as.foldlM step t := by
  intro t t' ht h
  induction as generalizing t with
  | nil =>
      cases h
      exact ht
  | cons a as ih =>
      obtain ⟨next, hnext, hrest⟩ := Option.bind_eq_some_iff.1 h
      have hsorted := hstep a List.mem_cons_self t next ht hnext
      exact ih (fun b hb => hstep b (List.mem_cons_of_mem _ hb)) next hsorted hrest

theorem keepsSorted_assignAll {body : List Assignment} (hbody : ∀ a ∈ body, a.value.IsSorted) :
    KeepsSorted fun t => t.assignAll body :=
  keepsSorted_foldlM fun a ha => keepsSorted_assign (hbody a ha)

theorem keepsSorted_enter {s : Section} (hbody : ∀ a ∈ s.body, a.value.IsSorted) :
    KeepsSorted fun t => t.enter s := by
  have hassign := keepsSorted_assignAll hbody
  apply keepsSorted_within
  intro t t' ht h
  refine ht.alter (fun old new hold hnew => ?_) h
  split at hnew
  · obtain ⟨made, hmade, rfl⟩ := Option.map_eq_some_iff.1 hnew
    have hsorted := Node.isSorted_table_iff.2 (hassign _ _ (isSorted_empty _ _) hmade)
    refine ⟨rfl, ?_⟩
    cases s.repeated with
    | false => exact hsorted
    | true => exact .array fun item hitem => List.mem_singleton.1 hitem ▸ hsorted
  · next k place items =>
      obtain ⟨hname, hitems⟩ := hold _ rfl
      split at hnew
      · obtain ⟨made, hmade, rfl⟩ := Option.map_eq_some_iff.1 hnew
        have hsorted := Node.isSorted_table_iff.2 (hassign _ _ (isSorted_empty _ _) hmade)
        refine ⟨hname, .array fun item hitem => ?_⟩
        rcases List.mem_append.1 hitem with hitem | hitem
        · exact hitems.forall_mem item hitem
        · exact List.mem_singleton.1 hitem ▸ hsorted
      · cases hnew
  · next k content =>
      obtain ⟨-, hcontent⟩ := hold _ rfl
      split at hnew
      · obtain ⟨made, hmade, rfl⟩ := Option.map_eq_some_iff.1 hnew
        have hsorted : content.IsSorted := Node.isSorted_table_iff.1 hcontent
        have hopened := hassign { content with place := s.place, origin := .header } made hsorted
        exact ⟨rfl, Node.isSorted_table_iff.2 (hopened hmade)⟩
      · cases hnew
  · cases hnew

end Table

/-! ## Reading -/

theorem forall_of_items? {α : Type} {P : α → Prop} {close : Char}
    {item : List Char → Option (α × List Char)}
    (hitem : ∀ cs p, item cs = some p → P p.1) {fuel : Nat} {cs : List Char}
    {p : List α × List Char} (h : items? close item fuel cs = some p) : ∀ a ∈ p.1, P a := by
  induction fuel generalizing cs p with
  | zero => cases h
  | succ fuel ih =>
      rw [items?] at h
      obtain ⟨gap, -, h⟩ := Option.bind_eq_some_iff.1 h
      split at h
      · cases h
      · next c rest =>
          split at h
          · cases h
            exact nofun
          · obtain ⟨⟨first, rest'⟩, hfirst, h⟩ := Option.bind_eq_some_iff.1 h
            obtain ⟨gap', -, h⟩ := Option.bind_eq_some_iff.1 h
            have hP : P first := hitem _ _ hfirst
            split at h
            · cases h
            · split at h
              · cases h
                exact fun a ha => List.mem_singleton.1 ha ▸ hP
              · split at h
                · obtain ⟨⟨more, rest''⟩, hmore, h⟩ := Option.bind_eq_some_iff.1 h
                  cases h
                  exact List.forall_mem_cons.2 ⟨hP, ih hmore⟩
                · cases h

theorem isSorted_of_assignment? {skip : List Char → Option (List Char)}
    {value : List Char → Option (Node × List Char)}
    (hvalue : ∀ cs p, value cs = some p → p.1.IsSorted) {cs : List Char}
    {p : Assignment × List Char} (h : assignment? skip value cs = some p) :
    p.1.value.IsSorted := by
  obtain ⟨⟨⟨path, key⟩, rest⟩, -, h⟩ := Option.bind_eq_some_iff.1 h
  obtain ⟨after, -, h⟩ := Option.bind_eq_some_iff.1 h
  dsimp only at h
  split at h
  · obtain ⟨start, -, h⟩ := Option.bind_eq_some_iff.1 h
    obtain ⟨⟨node, rest'⟩, hnode, h⟩ := Option.bind_eq_some_iff.1 h
    cases h
    exact hvalue _ _ hnode
  · cases h

/-- The induction is on the depth: items and values in braces are read less deep. -/
theorem isSorted_of_value? {depth : Nat} {cs : List Char} {p : Node × List Char}
    (h : value? depth cs = some p) : p.1.IsSorted := by
  induction depth using Nat.strongRecOn generalizing cs p with
  | _ depth ih =>
      unfold value? at h
      split at h
      · next depth rest =>
          obtain ⟨⟨items, rest'⟩, hitems, h⟩ := Option.bind_eq_some_iff.1 h
          cases h
          exact .array (forall_of_items? (fun _ _ => ih depth (Nat.lt_succ_self depth)) hitems)
      · next depth rest =>
          obtain ⟨⟨body, rest'⟩, hbody, h⟩ := Option.bind_eq_some_iff.1 h
          obtain ⟨content, hcontent, h⟩ := Option.bind_eq_some_iff.1 h
          cases h
          have hassignments : ∀ a ∈ body, a.value.IsSorted := by
            refine forall_of_items? (fun _ _ hread => ?_) hbody
            exact isSorted_of_assignment? (fun _ _ => ih depth (Nat.lt_succ_self depth)) hread
          exact Node.isSorted_table_iff.2
            (Table.keepsSorted_assignAll hassignments _ content (Table.isSorted_empty _ _) hcontent)
      · split at h
        · obtain ⟨q, -, rfl⟩ := Option.map_eq_some_iff.1 h
          exact .scalar
        · obtain ⟨q, -, rfl⟩ := Option.map_eq_some_iff.1 h
          exact .scalar

/-! ## Documents -/

def Line.IsSorted : Line → Prop
  | .blank => True
  | .assignment a => a.value.IsSorted
  | .header s => ∀ a ∈ s.body, a.value.IsSorted

structure Outline.IsSorted (o : Outline) : Prop where
  top : ∀ a ∈ o.top, a.value.IsSorted
  sections : ∀ s ∈ o.sections, ∀ a ∈ s.body, a.value.IsSorted

theorem isSorted_of_header? {opening cs : List Char} {repeated : Bool} {p : Section × List Char}
    (h : header? opening repeated cs = some p) : (Line.header p.1).IsSorted := by
  obtain ⟨⟨⟨path, key⟩, rest⟩, -, h⟩ := Option.bind_eq_some_iff.1 h
  dsimp only at h
  split at h
  · cases h
    exact nofun
  · cases h
    exact nofun
  · cases h

theorem isSorted_of_content? {cs : List Char} {p : Line × List Char} (h : content? cs = some p) :
    p.1.IsSorted := by
  unfold content? at h
  split at h
  · cases h
    trivial
  · obtain ⟨q, hq, rfl⟩ := Option.map_eq_some_iff.1 h
    exact isSorted_of_header? hq
  · obtain ⟨q, hq, rfl⟩ := Option.map_eq_some_iff.1 h
    exact isSorted_of_header? hq
  · split at h
    · cases h
      trivial
    · obtain ⟨q, hq, rfl⟩ := Option.map_eq_some_iff.1 h
      exact isSorted_of_assignment? (fun _ _ => isSorted_of_value?) hq

theorem Outline.IsSorted.cons {o : Outline} (ho : o.IsSorted) {line : Line}
    (hline : line.IsSorted) : (o.cons line).IsSorted := by
  cases line with
  | blank => exact ho
  | assignment a => exact ⟨List.forall_mem_cons.2 ⟨hline, ho.top⟩, ho.sections⟩
  | header s => exact ⟨nofun, List.forall_mem_cons.2 ⟨ho.top, ho.sections⟩⟩

theorem isSorted_of_outline? {fuel : Nat} {cs : List Char} {o : Outline}
    (h : outline? fuel cs = some o) : o.IsSorted := by
  induction fuel generalizing cs o with
  | zero =>
      cases cs with
      | nil =>
          cases h
          exact ⟨nofun, nofun⟩
      | cons c cs => cases h
  | succ fuel ih =>
      cases cs with
      | nil =>
          cases h
          exact ⟨nofun, nofun⟩
      | cons c cs =>
          obtain ⟨⟨line, rest⟩, hread, h⟩ := Option.bind_eq_some_iff.1 h
          obtain ⟨o', ho', h⟩ := Option.bind_eq_some_iff.1 h
          obtain ⟨⟨line', rest'⟩, hcontent, hread⟩ := Option.bind_eq_some_iff.1 hread
          obtain ⟨after, -, hread⟩ := Option.bind_eq_some_iff.1 hread
          cases h
          cases hread
          exact (ih ho').cons (isSorted_of_content? hcontent)

theorem Outline.IsSorted.toTable {o : Outline} (ho : o.IsSorted) {t : Table Node}
    (h : o.toTable = some t) : t.IsSorted := by
  obtain ⟨top, htop, hrest⟩ := Option.bind_eq_some_iff.1 h
  have hsorted := Table.keepsSorted_assignAll ho.top _ top (Table.isSorted_empty _ _) htop
  exact Table.keepsSorted_foldlM (fun s hs => Table.keepsSorted_enter (ho.sections s hs)) top t
    hsorted hrest

/-- All tables of a document list their entries in order. -/
theorem isSorted_of_document? {text : String} {t : Table Node} (h : document? text = some t) :
    t.IsSorted := by
  obtain ⟨o, ho, ht⟩ := Option.bind_eq_some_iff.1 h
  exact (isSorted_of_outline? ho).toTable ht

end StubNames.Toml
