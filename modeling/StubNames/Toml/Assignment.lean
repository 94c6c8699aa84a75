import StubNames.Toml.Node
/-!
# Assignments and headers

What the lines of a document add to its tables, and what they may not: no key is given twice, a
table gets one header, braces close a table for good, and dotted keys only add to tables that
dotted keys made.
-/

namespace StubNames.Toml

/-- A key with a value; `path` holds the keys before the last dot. -/
structure Assignment where
  path : List Key
  key : Key
  value : Node

/-- A header with the assignments under it. A repeated header adds a table to a list of them. -/
structure Section where
  path : List Key
  key : Key
  repeated : Bool
  place : Stretch
  body : List Assignment

structure Outline where
  top : List Assignment
  sections : List Section

namespace Table

def alterLast (change : Table Node → Option (Table Node)) : List Node → Option (List Node)
  | [] => none
  | [.table t] => (change t).map fun t => [.table t]
  | [_] => none
  | item :: rest => (alterLast change rest).map fun items => item :: items

/-- Changes the table at the end of a path, making tables of the given origin on the way. A list
of tables stands for its last one. -/
def within (origin : Origin) (change : Table Node → Option (Table Node)) :
    List Key → Table Node → Option (Table Node)
  | [], t => change t
  | key :: path, t =>
    t.alter key.name fun
      | none =>
        (within origin change path (empty key.place origin)).map fun t => (key, .table t)
      | some (key, .table t) =>
        if t.origin = .braces || (origin = .dotted && !t.origin.isOpen) then none
        else (within origin change path t).map fun t => (key, .table t)
      | some (key, .array place true items) =>
        (alterLast (within origin change path) items).map fun items =>
          (key, .array place true items)
      | some _ => none

def add (t : Table Node) (key : Key) (value : Node) : Option (Table Node) :=
  t.alter key.name fun
    | none => some (key, value)
    | some _ => none

/-- Adds an assignment. Without dots it goes to a table that no dotted key made, with dots to
one that a dotted key made. -/
def assign (t : Table Node) (a : Assignment) : Option (Table Node) :=
  within .dotted
    (fun t => if (t.origin == .dotted) == a.path.isEmpty then none else t.add a.key a.value)
    a.path t

def assignAll (t : Table Node) (body : List Assignment) : Option (Table Node) :=
  body.foldlM assign t

/-- Adds a section. A header may open a table that so far only other headers implied. -/
def enter (t : Table Node) (s : Section) : Option (Table Node) :=
  within .implied
    (fun t => t.alter s.key.name fun
      | none =>
        ((empty s.place .header).assignAll s.body).map fun t =>
          (s.key, if s.repeated then .array s.place true [.table t] else .table t)
      | some (key, .array place true items) =>
        if s.repeated then
          ((empty s.place .header).assignAll s.body).map fun t =>
            (key, .array place true (items ++ [.table t]))
        else none
      | some (_, .table t) =>
        if t.origin = .implied && !s.repeated then
          ({ t with place := s.place, origin := .header }.assignAll s.body).map fun t =>
            (s.key, .table t)
        else none
      | some _ => none)
    s.path t

end Table

def Outline.toTable (o : Outline) : Option (Table Node) := do
  let top ← (Table.empty ⟨0, 0⟩ .header).assignAll o.top
  o.sections.foldlM Table.enter top

end StubNames.Toml
