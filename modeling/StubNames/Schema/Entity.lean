/-!
# Schema entities

An entity is one declaration of a schema: its kind, the name it was declared with, its full name
and its place among the others. A handle names an entity by the number of its graph and its
position there, so that a graph never takes a handle of another graph for its own.
-/

namespace StubNames.Schema

structure Handle where
  graph : Nat
  index : Nat
  deriving DecidableEq, Repr

namespace Handle

def toText (h : Handle) : String :=
  s!"#{h.graph}:{h.index}"

/-- Handles are ordered by graph, then by position. -/
instance : Ord Handle where
  compare a b := (compare a.graph b.graph).then (compare a.index b.index)

end Handle

inductive Kind where
  | file
  | package
  | message
  /-- A field, with its oneof group if it belongs to one. -/
  | field (oneof : Option Handle)
  | oneofGroup
  | enumeration
  | enumValue
  | service
  | method
  deriving DecidableEq, Repr

namespace Kind

def label : Kind → String
  | .file => "file"
  | .package => "package"
  | .message => "message"
  | .field _ => "field"
  | .oneofGroup => "oneof"
  | .enumeration => "enum"
  | .enumValue => "enum value"
  | .service => "service"
  | .method => "method"

def isTypeScope : Kind → Bool
  | .file => true
  | .message => true
  | _ => false

end Kind

structure Entity where
  kind : Kind
  name : String
  /-- Distinct for all entities of a graph: a file's path, or a dotted name. -/
  fullName : String
  /-- The entity that encloses this one; files and packages have none. -/
  parent : Option Handle
  /-- The package it is declared in; packages have none. -/
  package : Option Handle
  /-- What it encloses, in the order of declaration. -/
  children : List Handle
  deriving DecidableEq, Repr

namespace Entity

def oneof (e : Entity) : Option Handle :=
  match e.kind with
  | .field oneof => oneof
  | _ => none

theorem oneof_eq_some_iff {e : Entity} {group : Handle} :
    e.oneof = some group ↔ e.kind = .field (some group) := by
  unfold oneof
  split
  · next oneof hkind => rw [hkind, Kind.field.injEq]
  · next hkind =>
      constructor
      · intro h
        cases h
      · exact fun h => absurd h (hkind _)

end Entity

end StubNames.Schema
