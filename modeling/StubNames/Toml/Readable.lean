import StubNames.Toml.Datetime
import StubNames.Toml.Node
/-!
# Readable documents

A document is readable when everything in it has a value: every number is in range and has
suitable digits, and every table that stands for a date holds one. What is wrong here does not
keep a reader from the rest of a document.
-/

namespace StubNames.Toml

/-- The key under which a date or time appears to a reader that expects a table. -/
def datetimeField : String :=
  "$__toml_private_datetime"

namespace Node

def isDateText : Node → Bool
  | .scalar _ (.text s) => Datetime.accepts s.toList
  | _ => false

mutual

/-- A table with the key of dates in front stands for a date, and only that entry matters. -/
def isReadable : Node → Bool
  | .scalar _ value => value != .valueless
  | .array _ _ items => areReadable items
  | .table ⟨_, _, []⟩ => true
  | .table ⟨_, _, (key, first) :: rest⟩ =>
    if key.name = datetimeField then first.isDateText
    else first.isReadable && entriesAreReadable rest

def areReadable : List Node → Bool
  | [] => true
  | item :: rest => item.isReadable && areReadable rest

def entriesAreReadable : List (Key × Node) → Bool
  | [] => true
  | (_, value) :: rest => value.isReadable && entriesAreReadable rest

end

end Node

def Table.isReadable (t : Table Node) : Bool :=
  Node.entriesAreReadable t.entries

end StubNames.Toml
