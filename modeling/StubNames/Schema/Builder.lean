import StubNames.Schema.Graph
/-!
# Building schema graphs

A graph is built from declarations, top down. A declaration names its parent by a handle, and it
is refused when the handle is not of this graph, when the parent's kind does not hold such
entities, when the name is empty or when the full name is taken, in this order. A declaration
that is refused changes nothing. There is no bound on how many entities a graph holds.
-/

namespace StubNames.Schema

inductive DeclarationError where
  | unknownEntity (h : Handle)
  | invalidParent (child parent : Kind)
  | emptyName (kind : Kind)
  | duplicate (fullName : String)
  deriving DecidableEq, Repr

namespace DeclarationError

def message : DeclarationError → String
  | .unknownEntity h => s!"entity {h.toText} does not belong to this graph"
  | .invalidParent child parent =>
    s!"a {child.label} cannot be declared inside a {parent.label}"
  | .emptyName kind => s!"{kind.label} name must not be empty"
  | .duplicate fullName => s!"'{fullName}' is already declared"

end DeclarationError

/-- What is declared inside a parent under a name of its own. -/
inductive Member where
  | message
  | enumeration
  | enumValue
  | field
  | oneof
  | service
  | method
  deriving DecidableEq, Repr

namespace Member

def kind : Member → Kind
  | .message => .message
  | .enumeration => .enumeration
  | .enumValue => .enumValue
  | .field => .field none
  | .oneof => .oneofGroup
  | .service => .service
  | .method => .method

def fits : Member → Kind → Bool
  | .message, parent => parent.isTypeScope
  | .enumeration, parent => parent.isTypeScope
  | .enumValue, parent => parent == .enumeration
  | .field, parent => parent == .message
  | .oneof, parent => parent == .message
  | .service, parent => parent == .file
  | .method, parent => parent == .service

end Member

inductive Declaration where
  /-- A package, by its dotted path. -/
  | package (name : String)
  /-- A file of a package, by its path. -/
  | file (package : Handle) (path : String)
  | member (what : Member) (parent : Handle) (name : String)
  /-- A field of a oneof group, declared in the message that has the group. -/
  | oneofField (group : Handle) (name : String)
  deriving DecidableEq, Repr

structure Scope (g : Graph) where
  handle : Handle
  entity : Entity
  here : g.get? handle = some entity

/-- A graph that still takes declarations. -/
structure Builder where
  graph : Graph

/-- What a declaration comes to: the handle it issues or why it is refused, and the builder that
it leaves. -/
abbrev Outcome := Except DeclarationError Handle × Builder

def Outcome.adoptedBy (parent : Handle) : Outcome → Outcome
  | (.error e, b) => (.error e, b)
  | (.ok h, b) => (.ok h, ⟨b.graph.adopt parent h⟩)

namespace Builder

def start (number : Nat) : Builder :=
  ⟨.empty number⟩

def build (b : Builder) : Graph :=
  b.graph

/-- Goes on with what a check has found, if it passes. -/
def given {α : Type} (b : Builder) (check : Except DeclarationError α) (next : α → Outcome) :
    Outcome :=
  match check with
  | .error e => (.error e, b)
  | .ok found => next found

def scope (b : Builder) (child : Kind) (allowed : Kind → Bool) (h : Handle) :
    Except DeclarationError (Scope b.graph) :=
  match here : b.graph.get? h with
  | none => .error (.unknownEntity h)
  | some e => if allowed e.kind then .ok ⟨h, e, here⟩ else .error (.invalidParent child e.kind)

def insert (b : Builder) (kind : Kind) (name fullName : String)
    (parent : Option (Scope b.graph)) (package : Option Handle) : Outcome :=
  if name.isEmpty then (.error (.emptyName kind), b)
  else if b.graph.index.contains fullName then (.error (.duplicate fullName), b)
  else
    let e : Entity :=
      { kind, name, fullName, parent := parent.map Scope.handle, package, children := [] }
    (.ok ⟨b.graph.number, b.graph.size⟩, ⟨b.graph.push e fun p hp => by
      obtain ⟨s, -, rfl⟩ := Option.map_eq_some_iff.1 hp
      exact Graph.index_lt_of_get? s.here⟩)

/-- The package of what is declared in a scope, and the name that full names go on from: the
package's for a file, which has no part in them, and else the scope's own. -/
def qualifier (b : Builder) (s : Scope b.graph) : Except DeclarationError (Handle × String) :=
  match s.entity.package with
  | none => .error (.unknownEntity s.handle)
  | some package =>
    if s.entity.kind = .file then
      match b.graph.get? package with
      | none => .error (.unknownEntity package)
      | some p => .ok (package, p.fullName)
    else .ok (package, s.entity.fullName)

def child (b : Builder) (kind : Kind) (s : Scope b.graph) (name : String) : Outcome :=
  b.given (b.qualifier s) fun (package, outer) =>
    (b.insert kind name (outer ++ "." ++ name) (some s) (some package)).adoptedBy s.handle

def encloser (b : Builder) (s : Scope b.graph) : Except DeclarationError Handle :=
  match s.entity.parent with
  | none => .error (.unknownEntity s.handle)
  | some message => .ok message

def declare (b : Builder) : Declaration → Outcome
  | .package name => b.insert .package name ("." ++ name) none none
  | .file package path =>
    b.given (b.scope .file (· == .package) package) fun _ =>
      b.insert .file path path none (some package)
  | .member what parent name =>
    b.given (b.scope what.kind what.fits parent) fun s => b.child what.kind s name
  | .oneofField group name =>
    let kind := Kind.field (some group)
    b.given (b.scope kind (· == .oneofGroup) group) fun g =>
      b.given (b.encloser g) fun message =>
        b.given (b.scope kind (· == .message) message) fun s =>
          (b.child kind s name).adoptedBy group

end Builder

end StubNames.Schema
