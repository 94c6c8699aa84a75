import StubNames.Proofs.Schema.WellFormed
/-!
# What a declaration comes to

A declaration is refused for the first of four reasons, or it makes one entity.  `Refusal` lists
the reasons in their order, `Entry` says which entity is made, and in a well-formed graph
`declare_of_refusal` and `declare_of_admitted` say that nothing else can happen: every other
failure that the checks provide for is out of reach.
-/

namespace StubNames.Schema

/-! ## Parts of a declaration -/

namespace Declaration

def host? : Declaration → Option Handle
  | .package _ => none
  | .file home _ => some home
  | .member _ parent _ => some parent
  | .oneofField group _ => some group

def name : Declaration → String
  | .package name => name
  | .file _ path => path
  | .member _ _ name => name
  | .oneofField _ name => name

def kind : Declaration → Kind
  | .package _ => .package
  | .file _ _ => .file
  | .member what _ _ => what.kind
  | .oneofField group _ => .field (some group)

def hosts : Declaration → List Kind
  | .package _ => []
  | .file _ _ => [.package]
  | .member what _ _ => what.kind.hosts
  | .oneofField _ _ => [.oneofGroup]

end Declaration

/-- What the full names of the entities declared in `e` go on from: a file leaves it to its
package. -/
def Graph.scopeName? (g : Graph) (e : Entity) : Option String :=
  if e.kind = .file then (e.package.bind g.get?).map Entity.fullName else some e.fullName

/-- The full name of what is declared.  A field of a oneof group is named after the message that
has the group. -/
def Declaration.fullName? (g : Graph) : Declaration → Option String
  | .package name => some ("." ++ name)
  | .file _ path => some path
  | .member _ parent name => do
    let s ← g.get? parent
    return (← g.scopeName? s) ++ "." ++ name
  | .oneofField group name => do
    let s ← g.get? group
    let m ← g.get? (← s.parent)
    return m.fullName ++ "." ++ name

/-! ## Reasons to refuse -/

namespace Declaration

def Hosted (g : Graph) (issued : List Handle) (d : Declaration) : Prop :=
  ∀ h, d.host? = some h → h ∈ issued ∧ ∃ e, g.get? h = some e ∧ e.kind ∈ d.hosts

/-- The first reason to refuse a declaration when `issued` are the handles of the graph. -/
inductive Refusal (g : Graph) (issued : List Handle) (d : Declaration) :
    DeclarationError → Prop where
  | unknown {h : Handle} (hhost : d.host? = some h) (hissued : h ∉ issued) :
      Refusal g issued d (.unknownEntity h)
  | misplaced {h : Handle} {e : Entity} (hhost : d.host? = some h) (hissued : h ∈ issued)
      (he : g.get? h = some e) (hkind : e.kind ∉ d.hosts) :
      Refusal g issued d (.invalidParent d.kind e.kind)
  | unnamed (hhosted : d.Hosted g issued) (hname : d.name = "") :
      Refusal g issued d (.emptyName d.kind)
  | taken {fullName : String} (hhosted : d.Hosted g issued) (hname : d.name ≠ "")
      (hfull : d.fullName? g = some fullName) (htaken : fullName ∈ g.fullNames) :
      Refusal g issued d (.duplicate fullName)

structure Admitted (g : Graph) (issued : List Handle) (d : Declaration) : Prop where
  hosted : d.Hosted g issued
  named : d.name ≠ ""
  free : ∃ fullName, d.fullName? g = some fullName ∧ fullName ∉ g.fullNames

/-- The entity that a declaration makes, and the entities that list it as a child. -/
inductive Entry (g : Graph) : Declaration → Entity → List Handle → Prop where
  | package (name : String) :
      Entry g (.package name) ⟨.package, name, "." ++ name, none, none, []⟩ []
  | file {package : Handle} {s : Entity} (path : String) (hs : g.get? package = some s)
      (hkind : s.kind = .package) :
      Entry g (.file package path) ⟨.file, path, path, none, some package, []⟩ []
  | member {what : Member} {parent package : Handle} {s : Entity} {outer : String} (name : String)
      (hs : g.get? parent = some s) (hkind : s.kind ∈ what.kind.hosts)
      (hpackage : s.package = some package) (houter : g.scopeName? s = some outer) :
      Entry g (.member what parent name)
        ⟨what.kind, name, outer ++ "." ++ name, some parent, some package, []⟩ [parent]
  | oneofField {group message package : Handle} {s m : Entity} (name : String)
      (hs : g.get? group = some s) (hkind : s.kind = .oneofGroup)
      (hparent : s.parent = some message) (hm : g.get? message = some m)
      (hmessage : m.kind = .message) (hpackage : m.package = some package) :
      Entry g (.oneofField group name)
        ⟨.field (some group), name, m.fullName ++ "." ++ name, some message, some package, []⟩
        [message, group]

/-- A declaration makes one entity and no other. -/
theorem Entry.unique {g : Graph} {d : Declaration} {e e' : Entity}
    {parents parents' : List Handle} (h : d.Entry g e parents) (h' : d.Entry g e' parents') :
    e = e' ∧ parents = parents' := by
  cases h with
  | package name =>
      cases h'
      exact ⟨rfl, rfl⟩
  | file path hs hkind =>
      cases h'
      exact ⟨rfl, rfl⟩
  | member name hs hkind hpackage houter =>
      cases h' with
      | member _ hs' hkind' hpackage' houter' =>
          obtain rfl := Option.some.inj (hs.symm.trans hs')
          obtain rfl := Option.some.inj (hpackage.symm.trans hpackage')
          obtain rfl := Option.some.inj (houter.symm.trans houter')
          exact ⟨rfl, rfl⟩
  | oneofField name hs hkind hparent hm hmessage hpackage =>
      cases h' with
      | oneofField _ hs' hkind' hparent' hm' hmessage' hpackage' =>
          obtain rfl := Option.some.inj (hs.symm.trans hs')
          obtain rfl := Option.some.inj (hparent.symm.trans hparent')
          obtain rfl := Option.some.inj (hm.symm.trans hm')
          obtain rfl := Option.some.inj (hpackage.symm.trans hpackage')
          exact ⟨rfl, rfl⟩

end Declaration

namespace Builder

/-! ## The steps of a declaration -/

section Steps

variable {b : Builder} {kind : Kind} {allowed : Kind → Bool} {h : Handle}

@[simp] theorem given_error {α : Type} {e : DeclarationError} {next : α → Outcome} :
    b.given (.error e) next = (.error e, b) := rfl

@[simp] theorem given_ok {α : Type} {found : α} {next : α → Outcome} :
    b.given (.ok found) next = next found := rfl

theorem scope_of_none (hh : b.graph.get? h = none) :
    b.scope kind allowed h = .error (.unknownEntity h) := by
  unfold scope
  split
  · rfl
  · next e he =>
      rw [hh] at he
      cases he

theorem scope_of_not_allowed {e : Entity} (he : b.graph.get? h = some e)
    (hkind : allowed e.kind = false) :
    b.scope kind allowed h = .error (.invalidParent kind e.kind) := by
  unfold scope
  split
  · next hh =>
      rw [he] at hh
      cases hh
  · next e' he' =>
      obtain rfl : e = e' := Option.some.inj (he.symm.trans he')
      rw [if_neg (by simp [hkind])]

theorem scope_of_allowed {e : Entity} (he : b.graph.get? h = some e)
    (hkind : allowed e.kind = true) : b.scope kind allowed h = .ok ⟨h, e, he⟩ := by
  unfold scope
  split
  · next hh =>
      rw [he] at hh
      cases hh
  · next e' he' =>
      obtain rfl : e = e' := Option.some.inj (he.symm.trans he')
      rw [if_pos hkind]

variable {name fullName : String} {parent : Option (Scope b.graph)} {package : Option Handle}

theorem insert_of_empty (hname : name = "") :
    b.insert kind name fullName parent package = (.error (.emptyName kind), b) := by
  rw [insert, if_pos (by simp [hname])]

theorem insert_of_taken (hg : b.graph.Indexed) (hname : name ≠ "")
    (htaken : fullName ∈ b.graph.fullNames) :
    b.insert kind name fullName parent package = (.error (.duplicate fullName), b) := by
  have hcontains : b.graph.index.contains fullName = true := by
    simpa [Ordered.Map.contains, hg.keys] using htaken
  rw [insert, if_neg (by simpa using hname), if_pos hcontains]

theorem insert_of_free (kind : Kind) (parent : Option (Scope b.graph)) (package : Option Handle)
    (hg : b.graph.Indexed) (hname : name ≠ "") (hfree : fullName ∉ b.graph.fullNames) :
    ∃ he, b.insert kind name fullName parent package = (.ok b.graph.next,
      ⟨b.graph.push ⟨kind, name, fullName, parent.map Scope.handle, package, []⟩ he⟩) := by
  have hcontains : ¬b.graph.index.contains fullName = true := by
    simpa [Ordered.Map.contains, hg.keys] using hfree
  rw [insert, if_neg (by simpa using hname), if_neg hcontains]
  exact ⟨_, rfl⟩

theorem child_eq {s : Scope b.graph} {package : Handle} {outer : String}
    (hpackage : s.entity.package = some package)
    (houter : b.graph.scopeName? s.entity = some outer) :
    b.child kind s name =
      (b.insert kind name (outer ++ "." ++ name) (some s) (some package)).adoptedBy s.handle := by
  have hqualifier : b.qualifier s = .ok (package, outer) := by
    unfold qualifier
    rw [hpackage]
    by_cases hfile : s.entity.kind = .file
    · rw [Graph.scopeName?, if_pos hfile, hpackage, Option.bind_some] at houter
      obtain ⟨p, hp, rfl⟩ := Option.map_eq_some_iff.1 houter
      simp [hfile, hp]
    · rw [Graph.scopeName?, if_neg hfile] at houter
      simp [hfile, Option.some.inj houter]
  rw [child, hqualifier]
  rfl

end Steps

end Builder

theorem Graph.WellFormed.exists_scopeName {g : Graph} (hg : g.WellFormed) {h : Handle}
    {e : Entity} (he : g.get? h = some e) (hkind : e.kind ≠ .package) :
    ∃ package outer, e.package = some package ∧ g.scopeName? e = some outer := by
  have hplaced := hg h e he
  obtain ⟨package, hpackage⟩ : ∃ package, e.package = some package := by
    rw [← Option.ne_none_iff_exists']
    exact fun hnone => hkind (hplaced.package_eq_none.1 hnone)
  obtain ⟨p, hp, -⟩ := hplaced.package package hpackage
  by_cases hfile : e.kind = .file
  · exact ⟨package, p.fullName, hpackage, by simp [scopeName?, hfile, hpackage, hp]⟩
  · exact ⟨package, e.fullName, hpackage, by simp [scopeName?, hfile]⟩

theorem Graph.WellFormed.exists_message {g : Graph} (hg : g.WellFormed) {h : Handle}
    {s : Entity} (hs : g.get? h = some s) (hkind : s.kind = .oneofGroup) :
    ∃ message m, s.parent = some message ∧ g.get? message = some m ∧ m.kind = .message := by
  obtain ⟨message, m, hparent, hm, hmessage⟩ :=
    hg.exists_parent hs (by simp [hkind]) (by simp [hkind])
  rw [hkind] at hmessage
  exact ⟨message, m, hparent, hm, List.mem_singleton.1 hmessage⟩

def Outcome.adoptedByAll (o : Outcome) (parents : List Handle) : Outcome :=
  parents.foldl (fun o parent => o.adoptedBy parent) o

theorem Outcome.adoptedByAll_error (e : DeclarationError) (b : Builder) (parents : List Handle) :
    Outcome.adoptedByAll (.error e, b) parents = (.error e, b) := by
  induction parents with
  | nil => rfl
  | cons p parents ih => exact ih

theorem Outcome.adoptedByAll_ok (h : Handle) (b : Builder) (parents : List Handle) :
    Outcome.adoptedByAll (.ok h, b) parents = (.ok h, ⟨b.graph.adoptAll h parents⟩) := by
  induction parents generalizing b with
  | nil => rfl
  | cons p parents ih => exact ih ⟨b.graph.adopt p h⟩

theorem Member.fits_iff {what : Member} {k : Kind} : what.fits k = true ↔ k ∈ what.kind.hosts := by
  cases what <;> cases k <;> simp [fits, kind, Kind.hosts, Kind.isTypeScope]

namespace Builder

/-! ## Declarations in a well-formed graph -/

variable {b : Builder} {issued : List Handle} {d : Declaration}

/-- The first check of a declaration is that of its parent. -/
theorem declare_eq_given {h : Handle} (hhost : d.host? = some h) :
    ∃ allowed next, (∀ k, allowed k = true ↔ k ∈ d.hosts) ∧
      b.declare d = b.given (b.scope d.kind allowed h) next := by
  cases d with
  | package name => cases hhost
  | file home path =>
      obtain rfl : home = h := Option.some.inj hhost
      exact ⟨(· == .package), _, by simp [Declaration.hosts], rfl⟩
  | member what home name =>
      obtain rfl : home = h := Option.some.inj hhost
      exact ⟨what.fits, _, fun k => Member.fits_iff, rfl⟩
  | oneofField group name =>
      obtain rfl : group = h := Option.some.inj hhost
      exact ⟨(· == .oneofGroup), _, by simp [Declaration.hosts], rfl⟩

/-- The checks of the parent passed, a declaration adds an entity and lists it as a child. -/
theorem declare_of_hosted (hg : b.graph.WellFormed) (hd : d.Hosted b.graph issued) :
    ∃ fullName parent package parents, d.fullName? b.graph = some fullName ∧
      d.Entry b.graph ⟨d.kind, d.name, fullName, parent.map Scope.handle, package, []⟩ parents ∧
      b.declare d = (b.insert d.kind d.name fullName parent package).adoptedByAll parents := by
  cases d with
  | package name => exact ⟨"." ++ name, none, none, [], rfl, .package name, rfl⟩
  | file home path =>
      obtain ⟨-, s, hs, hhost⟩ := hd home rfl
      have hkind : s.kind = .package := List.mem_singleton.1 hhost
      refine ⟨path, none, some home, [], rfl, .file path hs hkind, ?_⟩
      rw [declare, scope_of_allowed hs (by simp [hkind])]
      rfl
  | member what home name =>
      obtain ⟨-, s, hs, hkind⟩ := hd home rfl
      have hne : s.kind ≠ .package := by
        intro hpackage
        rw [hpackage] at hkind
        cases what <;> simp [Declaration.hosts, Member.kind, Kind.hosts] at hkind
      obtain ⟨package, outer, hpackage, houter⟩ := hg.exists_scopeName hs hne
      refine ⟨outer ++ "." ++ name, some ⟨home, s, hs⟩, some package, [home], ?_,
        .member name hs hkind hpackage houter, ?_⟩
      · simp [Declaration.fullName?, hs, houter]
      · rw [declare, scope_of_allowed hs (Member.fits_iff.2 hkind), given_ok,
          child_eq hpackage houter]
        rfl
  | oneofField group name =>
      -- the group's message takes its place as the parent, and passes the second check
      obtain ⟨-, s, hs, hhost⟩ := hd group rfl
      have hkind : s.kind = .oneofGroup := List.mem_singleton.1 hhost
      obtain ⟨message, m, hparent, hm, hmessage⟩ := hg.exists_message hs hkind
      obtain ⟨package, outer, hpackage, houter⟩ := hg.exists_scopeName hm (by simp [hmessage])
      have hname : outer = m.fullName := by
        rw [Graph.scopeName?, if_neg (by simp [hmessage])] at houter
        exact (Option.some.inj houter).symm
      subst hname
      refine ⟨m.fullName ++ "." ++ name, some ⟨message, m, hm⟩, some package, [message, group], ?_,
        .oneofField name hs hkind hparent hm hmessage hpackage, ?_⟩
      · simp [Declaration.fullName?, hs, hparent, hm]
      · have hencloser : b.encloser ⟨group, s, hs⟩ = .ok message := by
          rw [encloser, hparent]
        rw [declare, scope_of_allowed hs (by simp [hkind]), given_ok, hencloser, given_ok,
          scope_of_allowed hm (by simp [hmessage]), given_ok, child_eq hpackage houter]
        rfl

theorem declare_of_refusal (hg : b.graph.WellFormed) (hindex : b.graph.Indexed)
    (hissued : ∀ h, h ∈ issued ↔ (b.graph.get? h).isSome = true) {e : DeclarationError}
    (h : d.Refusal b.graph issued e) : b.declare d = (.error e, b) := by
  cases h with
  | @unknown h hhost hnot =>
      obtain ⟨allowed, next, -, hdeclare⟩ := declare_eq_given (b := b) hhost
      have hnone : b.graph.get? h = none := by
        simpa [hissued] using hnot
      rw [hdeclare, scope_of_none hnone, given_error]
  | @misplaced h s hhost _ hs hkind =>
      obtain ⟨allowed, next, hallowed, hdeclare⟩ := declare_eq_given (b := b) hhost
      have hrefused : allowed s.kind = false :=
        Bool.eq_false_iff.2 (mt (hallowed s.kind).1 hkind)
      rw [hdeclare, scope_of_not_allowed hs hrefused, given_error]
  | unnamed hhosted hname =>
      obtain ⟨fullName, parent, package, parents, -, -, hdeclare⟩ := declare_of_hosted hg hhosted
      rw [hdeclare, insert_of_empty hname, Outcome.adoptedByAll_error]
  | @taken fullName hhosted hname hfull htaken =>
      obtain ⟨fullName', parent, package, parents, hfull', -, hdeclare⟩ :=
        declare_of_hosted hg hhosted
      obtain rfl : fullName = fullName' := Option.some.inj (hfull.symm.trans hfull')
      rw [hdeclare, insert_of_taken hindex hname htaken, Outcome.adoptedByAll_error]

theorem declare_of_admitted (hg : b.graph.WellFormed) (hindex : b.graph.Indexed)
    (h : d.Admitted b.graph issued) :
    ∃ e parents he, d.Entry b.graph e parents ∧ e.fullName ∉ b.graph.fullNames ∧
      b.declare d = (.ok b.graph.next, ⟨(b.graph.push e he).adoptAll b.graph.next parents⟩) := by
  obtain ⟨fullName, parent, package, parents, hfull, hentry, hdeclare⟩ :=
    declare_of_hosted hg h.hosted
  obtain ⟨fullName', hfull', hfree⟩ := h.free
  obtain rfl : fullName' = fullName := Option.some.inj (hfull'.symm.trans hfull)
  obtain ⟨he, hinsert⟩ := insert_of_free d.kind parent package hindex h.named hfree
  refine ⟨_, parents, he, hentry, hfree, ?_⟩
  rw [hdeclare, hinsert, Outcome.adoptedByAll_ok]

theorem admitted_or_refusal (hg : b.graph.WellFormed)
    (hissued : ∀ h, h ∈ issued ↔ (b.graph.get? h).isSome = true) :
    d.Admitted b.graph issued ∨ ∃ e, d.Refusal b.graph issued e := by
  by_cases hhosted : d.Hosted b.graph issued
  · obtain ⟨fullName, -, -, -, hfull, -⟩ := declare_of_hosted hg hhosted
    by_cases hname : d.name = ""
    · exact .inr ⟨_, .unnamed hhosted hname⟩
    · by_cases htaken : fullName ∈ b.graph.fullNames
      · exact .inr ⟨_, .taken hhosted hname hfull htaken⟩
      · exact .inl ⟨hhosted, hname, fullName, hfull, htaken⟩
  · obtain ⟨h, hhost, hnot⟩ : ∃ h, d.host? = some h ∧
        ¬(h ∈ issued ∧ ∃ e, b.graph.get? h = some e ∧ e.kind ∈ d.hosts) := by
      simpa [Declaration.Hosted] using hhosted
    by_cases hmem : h ∈ issued
    · obtain ⟨e, he⟩ := Option.isSome_iff_exists.1 ((hissued h).1 hmem)
      have hkind : e.kind ∉ d.hosts := fun hkind => hnot ⟨hmem, e, he, hkind⟩
      exact .inr ⟨_, .misplaced hhost hmem he hkind⟩
    · exact .inr ⟨_, .unknown hhost hmem⟩

end Builder

end StubNames.Schema
