import Mathlib.Data.List.Induction
import StubNames.Proofs.Naming.TypePath
/-!
# Paths that runs reach

Declarations can nest messages under any names: every path of names that are not empty is the path
of a message in the graph of some run.  What is declared under the entity with the longest full
name is never refused, because its own full name is longer still.
-/

namespace StubNames

open Schema (Builder Declaration Entity Graph Handle Kind Member)

namespace Schema

/-! ## Paths in a growing graph -/

namespace Graph

variable {g g' : Graph} {h : Handle} {e e' : Entity}

theorem Extends.typePath_eq (hext : g.Extends g') (hg : g.WellFormed) (hg' : g'.WellFormed)
    {h : Handle} {e e' : Entity} (he : g.get? h = some e) (he' : g'.get? h = some e')
    (hkind : e.kind = .message) : g'.typePath h e' = g.typePath h e := by
  obtain ⟨e₁, he₁, hgrows⟩ := hext.grows h e he
  obtain rfl : e₁ = e' := Option.some.inj (he₁.symm.trans he')
  obtain ⟨p, s, hp, hs, hmem⟩ := hg.exists_parent he (by simp [hkind]) (by simp [hkind])
  obtain ⟨s', hs', hsgrows⟩ := hext.grows p s hs
  have hp' : e₁.parent = some p := by rw [hgrows.parent, hp]
  rw [hkind] at hmem
  rcases List.mem_cons.1 hmem with hfile | hmessage
  · have hfile' : s'.kind = .file := by rw [hsgrows.kind, hfile]
    rw [hg.typePath_of_file he hp hs hfile, hg'.typePath_of_file he' hp' hs' hfile', hgrows.name]
  · have hmessage := List.mem_singleton.1 hmessage
    have hmessage' : s'.kind = .message := by rw [hsgrows.kind, hmessage]
    rw [typePath_of_message he hp hs hmessage, typePath_of_message he' hp' hs' hmessage',
      hext.typePath_eq hg hg' hs hs' hmessage, hgrows.name]
termination_by h.index
decreasing_by exact parent_lt_of_get? he hp

theorem exists_get?_next (he : ∀ p, e.parent = some p → p.index < g.entities.length)
    (parents : List Handle) :
    ∃ e', ((g.push e he).adoptAll g.next parents).get? g.next = some e' ∧ e.Grows e' :=
  extends_adoptAll.grows g.next e get?_push_next

/-- A file or a message in which full names are longer than all that there are. -/
structure Deepest (g : Graph) (h : Handle) (e : Entity) : Prop where
  here : g.get? h = some e
  kind : e.kind = .file ∨ e.kind = .message
  longest : ∃ outer, g.scopeName? e = some outer ∧ ∀ x ∈ g.fullNames, x.length ≤ outer.length

end Graph

namespace Builder

variable {b : Builder} {h : Handle} {e : Entity}

theorem Valid.declare_of_deepest (hb : b.Valid) (hdeep : b.graph.Deepest h e) {what : Member}
    (hfits : e.kind ∈ what.kind.hosts) {name : String} (hname : name ≠ "") :
    ∃ e', (b.declare (.member what h name)).2.graph.get? b.graph.next = some e' ∧
      e'.kind = what.kind ∧ e'.name = name ∧ e'.parent = some h ∧
      b.graph.Extends (b.declare (.member what h name)).2.graph ∧
      (what = .message → (b.declare (.member what h name)).2.graph.Deepest b.graph.next e') := by
  obtain ⟨outer, houter, hlongest⟩ := hdeep.longest
  have hlonger : ∀ x ∈ b.graph.fullNames, x.length < (outer ++ "." ++ name).length := by
    intro x hx
    have hle := hlongest x hx
    have hdot : ".".length = 1 := rfl
    rw [String.length_append, String.length_append]
    omega
  -- nothing has the new full name yet, because it would be too long
  have hfree : outer ++ "." ++ name ∉ b.graph.fullNames :=
    fun hmem => Nat.lt_irrefl _ (hlonger _ hmem)
  have hissued : h ∈ b.graph.handles := Graph.mem_handles_iff.2 (by rw [hdeep.here]; rfl)
  have hadmitted : (Declaration.member what h name).Admitted b.graph b.graph.handles := by
    refine ⟨?_, hname, outer ++ "." ++ name, ?_, hfree⟩
    · rintro _ ⟨rfl⟩
      exact ⟨hissued, e, hdeep.here, hfits⟩
    · simp [Declaration.fullName?, hdeep.here, houter]
  obtain ⟨e', parents, he', hentry, -, hdeclare⟩ :=
    declare_of_admitted hb.wellFormed hb.indexed hadmitted
  obtain ⟨e'', hget, hgrows⟩ := Graph.exists_get?_next he' parents
  have hfields : e'.kind = what.kind ∧ e'.name = name ∧ e'.parent = some h ∧
      e'.fullName = outer ++ "." ++ name := by
    cases hentry with
    | member name hs hkind hpackage houter' =>
        obtain rfl := Option.some.inj (hdeep.here.symm.trans hs)
        obtain rfl := Option.some.inj (houter.symm.trans houter')
        exact ⟨rfl, rfl, rfl, rfl⟩
  obtain ⟨hkind, hname', hparent, hfull⟩ := hfields
  have hkind' : e''.kind = what.kind := hgrows.kind.trans hkind
  rw [hdeclare]
  refine ⟨e'', hget, hkind', hgrows.name.trans hname', hgrows.parent.trans hparent,
    Graph.extends_push.trans Graph.extends_adoptAll, ?_⟩
  rintro rfl
  have hmessage : e''.kind = .message := hkind'
  refine ⟨hget, .inr hmessage, outer ++ "." ++ name, ?_, fun x hx => ?_⟩
  · rw [Graph.scopeName?, if_neg (by simp [hmessage]), hgrows.fullName, hfull]
  · rw [Graph.fullNames_adoptAll, Graph.fullNames_push, List.mem_append, List.mem_singleton] at hx
    rcases hx with hx | rfl
    · exact Nat.le_of_lt (hlonger x hx)
    · exact Nat.le_of_eq (by rw [hfull])

/-! ## Reaching a path -/

def baseDeclarations : List Declaration :=
  [.package "p", .file ⟨1, 0⟩ "f"]

theorem deepest_baseDeclarations :
    ∃ e, ((start 1).run baseDeclarations).graph.Deepest ⟨1, 1⟩ e ∧ e.kind = .file := by
  refine ⟨⟨.file, "f", "f", none, some ⟨1, 0⟩, []⟩, ⟨by decide +kernel, .inl rfl, ".p", ?_⟩, rfl⟩
  decide +kernel

theorem exists_deepest {path : List String} (hpath : ∀ name ∈ path, name ≠ "") :
    ∃ ds h e, ((start 1).run ds).graph.Deepest h e ∧
      if path = [] then e.kind = .file
      else e.kind = .message ∧ ((start 1).run ds).graph.typePath h e = path := by
  induction path using List.reverseRecOn with
  | nil =>
      obtain ⟨e, hdeep, hkind⟩ := deepest_baseDeclarations
      exact ⟨baseDeclarations, ⟨1, 1⟩, e, hdeep, by rw [if_pos rfl]; exact hkind⟩
  | append_singleton path name ih =>
      obtain ⟨ds, h, e, hdeep, hrest⟩ := ih fun s hs => hpath s (List.mem_append_left _ hs)
      have hname : name ≠ "" := hpath name (by simp)
      have hvalid := valid_run_start 1 ds
      have hfits : e.kind ∈ Member.message.kind.hosts := by
        rcases hdeep.kind with hkind | hkind <;> simp [hkind, Member.kind, Kind.hosts]
      obtain ⟨e', hget, hkind', hname', hparent, hext, hdeep'⟩ :=
        hvalid.declare_of_deepest hdeep hfits hname
      have hvalid' := hvalid.declare (.member .message h name)
      rw [← run_concat] at hget hext hdeep' hvalid'
      refine ⟨ds ++ [.member .message h name], _, e', hdeep' rfl, ?_⟩
      rw [if_neg (by simp)]
      refine ⟨hkind', ?_⟩
      -- the new message is in the file, or goes on from the path that was reached before
      obtain ⟨s, hs, hsgrows⟩ := hext.grows h e hdeep.here
      split at hrest
      · next hnil =>
          have hfile : s.kind = .file := hsgrows.kind.trans hrest
          rw [hvalid'.wellFormed.typePath_of_file hget hparent hs hfile, hname', hnil]
          rfl
      · next hne =>
          obtain ⟨hmessage, hreached⟩ := hrest
          have hsmessage : s.kind = .message := hsgrows.kind.trans hmessage
          rw [Graph.typePath_of_message hget hparent hs hsmessage, hname',
            hext.typePath_eq hvalid.wellFormed hvalid'.wellFormed hdeep.here hs hmessage, hreached]

/-- Every path is the path of a message. -/
theorem exists_message_of_path {path : List String} (hne : path ≠ [])
    (hpath : ∀ name ∈ path, name ≠ "") :
    ∃ ds h e, ((start 1).run ds).graph.get? h = some e ∧ e.kind = .message ∧
      ((start 1).run ds).graph.typePath h e = path := by
  obtain ⟨ds, h, e, hdeep, hrest⟩ := exists_deepest hpath
  rw [if_neg hne] at hrest
  exact ⟨ds, h, e, hdeep.here, hrest⟩

/-- Every name is the name of a field. -/
theorem exists_field_of_name {name : String} (hname : name ≠ "") :
    ∃ ds h e, ((start 1).run ds).graph.get? h = some e ∧ e.kind = .field none ∧
      e.name = name := by
  have hpath : ∀ name ∈ ["M"], name ≠ "" := by
    simp
  obtain ⟨ds, h, e, hdeep, hrest⟩ := exists_deepest hpath
  rw [if_neg (by simp)] at hrest
  have hfits : e.kind ∈ Member.field.kind.hosts := by
    rw [hrest.1]
    exact List.mem_singleton.2 rfl
  obtain ⟨e', hget, hkind, hname', -⟩ :=
    (valid_run_start 1 ds).declare_of_deepest hdeep hfits hname
  rw [← run_concat] at hget
  exact ⟨_, _, e', hget, hkind, hname'⟩

end Builder

end Schema

end StubNames
