import StubNames.Toml.Stretch
import StubNames.Decimal.Binary64
/-!
# Nodes of a document

A document is a tree of tables and arrays over scalars. Every node and every key knows where it
stands, and a table knows what it was made by, since that decides what may still be added.
-/

namespace StubNames.Toml

structure Key where
  name : String
  place : Stretch
  deriving DecidableEq, Repr

inductive Scalar where
  | text (value : String)
  | integer (value : Int)
  | real (value : Decimal.Binary64)
  | boolean (value : Bool)
  | datetime
  /-- A number without a value: out of range, without digits, or with digits of another base. -/
  | valueless
  deriving DecidableEq, Repr

/-- What made a table: a header of its own, the path of another header, the path of a dotted
key, or braces. -/
inductive Origin where
  | header
  | implied
  | dotted
  | braces
  deriving DecidableEq, Repr

/-- Whether a dotted key may add to a table. -/
def Origin.isOpen : Origin → Bool
  | .implied => true
  | .dotted => true
  | .header => false
  | .braces => false

/-- The entries of a table are sorted by the names of their keys, which differ. -/
structure Table (α : Type) where
  place : Stretch
  origin : Origin
  entries : List (Key × α)

inductive Node where
  | scalar (place : Stretch) (value : Scalar)
  /-- An array, made by brackets or as a list of tables with repeated headers. -/
  | array (place : Stretch) (ofTables : Bool) (items : List Node)
  | table (content : Table Node)

def Node.place : Node → Stretch
  | .scalar place _ => place
  | .array place _ _ => place
  | .table content => content.place

namespace Table

variable {α : Type}

def empty (place : Stretch) (origin : Origin) : Table α :=
  ⟨place, origin, []⟩

/-- Changes what stands under a name, or adds it in its place; fails where the change does. -/
def alterEntries (name : String) (change : Option (Key × α) → Option (Key × α)) :
    List (Key × α) → Option (List (Key × α))
  | [] => (change none).map fun e => [e]
  | (k, v) :: rest =>
    if k.name = name then (change (some (k, v))).map fun e => e :: rest
    else if name < k.name then (change none).map fun e => e :: (k, v) :: rest
    else (alterEntries name change rest).map fun es => (k, v) :: es

def alter (t : Table α) (name : String) (change : Option (Key × α) → Option (Key × α)) :
    Option (Table α) :=
  (alterEntries name change t.entries).map fun entries => { t with entries }

end Table

end StubNames.Toml
