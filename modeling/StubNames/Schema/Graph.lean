import StubNames.Ordered.Map
import StubNames.Schema.Entity
/-!
# Schema graphs

A graph holds the entities of a schema in the order of their declaration, with an index by full
name. A parent is always declared before its children, so walking up ends.
-/

namespace StubNames.Schema

structure Graph where
  number : Nat
  entities : List Entity
  index : Ordered.Map String Handle
  parent_lt : ∀ (i : Nat) (e : Entity) (p : Handle),
    entities[i]? = some e → e.parent = some p → p.index < i

namespace Graph

def empty (number : Nat) : Graph where
  number := number
  entities := []
  index := .empty
  parent_lt := by simp

/-- The entity of a handle, unless the handle belongs to another graph. -/
def get? (g : Graph) (h : Handle) : Option Entity :=
  if h.graph = g.number then g.entities[h.index]? else none

theorem getElem?_of_get? {g : Graph} {h : Handle} {e : Entity} (he : g.get? h = some e) :
    g.entities[h.index]? = some e := by
  unfold get? at he
  split at he
  · exact he
  · cases he

theorem index_lt_of_get? {g : Graph} {h : Handle} {e : Entity} (he : g.get? h = some e) :
    h.index < g.entities.length :=
  (List.getElem?_eq_some_iff.1 (getElem?_of_get? he)).1

theorem parent_lt_of_get? {g : Graph} {h p : Handle} {e : Entity} (he : g.get? h = some e)
    (hp : e.parent = some p) : p.index < h.index :=
  g.parent_lt h.index e p (getElem?_of_get? he) hp

def lookup (g : Graph) (fullName : String) : Option Handle :=
  g.index.get? fullName

/-- The entities that enclose an entity, nearest first. -/
def ancestors (g : Graph) (h : Handle) : List Handle :=
  match _he : g.get? h with
  | none => []
  | some e =>
    match _hp : e.parent with
    | none => []
    | some p => p :: g.ancestors p
termination_by h.index
decreasing_by exact parent_lt_of_get? _he _hp

def toList (g : Graph) : List (Handle × Entity) :=
  g.index.values.filterMap fun h => g.entities[h.index]?.map fun e => (h, e)

def size (g : Graph) : Nat :=
  g.entities.length

def isEmpty (g : Graph) : Bool :=
  g.entities.isEmpty

theorem parent_lt_append (g : Graph) (e : Entity)
    (he : ∀ p, e.parent = some p → p.index < g.entities.length) (i : Nat) (e' : Entity) (p : Handle)
    (hi : (g.entities ++ [e])[i]? = some e') (hp : e'.parent = some p) : p.index < i := by
  rcases Nat.lt_trichotomy i g.entities.length with h | h | h
  · rw [List.getElem?_append_left h] at hi
    exact g.parent_lt i e' p hi hp
  · subst h
    simp only [List.getElem?_concat_length, Option.some.injEq] at hi
    exact he p (hi ▸ hp)
  · rw [List.getElem?_eq_none (by simp; omega)] at hi
    cases hi

def push (g : Graph) (e : Entity)
    (he : ∀ p, e.parent = some p → p.index < g.entities.length) : Graph where
  number := g.number
  entities := g.entities ++ [e]
  index := g.index.insert e.fullName ⟨g.number, g.entities.length⟩
  parent_lt := g.parent_lt_append e he

def adopt (g : Graph) (parent child : Handle) : Graph where
  number := g.number
  entities := g.entities.modify parent.index fun e => { e with children := e.children ++ [child] }
  index := g.index
  parent_lt i e p hi hp := by
    rw [List.getElem?_modify] at hi
    obtain ⟨e', he', rfl⟩ := Option.map_eq_some_iff.1 hi
    refine g.parent_lt i e' p he' ?_
    by_cases h : parent.index = i
    · simpa [h] using hp
    · simpa [h] using hp

end Graph

end StubNames.Schema
