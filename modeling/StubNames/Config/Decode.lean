import StubNames.Config.Basic
import StubNames.Datum
import StubNames.Decimal.Layout
import StubNames.Toml.Readable
/-!
# Configurations in documents

How the table of a document becomes a configuration. The keys of a table are visited in their
sorted order, depth first, and the first fault is reported with the place that it blames. A
section may also be written as an array of its settings in their order of declaration; missing
ones keep their defaults and further items are not looked at.
-/

namespace StubNames.Config

open Toml (Key Node Scalar Stretch Table)

inductive Fault where
  | unknownField (name : String) (known : List String)
  | mismatch (m : Mismatch)
  | suffix (cause : IdentifierError)
  /-- A number that has no value. -/
  | valueless
  deriving DecidableEq, Repr

namespace Fault

def choice : List String → String
  | [] => "nothing"
  | [a] => s!"`{a}`"
  | [a, b] => s!"`{a}` or `{b}`"
  | as => "one of " ++ ", ".intercalate (as.map fun a => s!"`{a}`")

def message : Fault → String
  | .unknownField name known => s!"unknown field `{name}`, expected {choice known}"
  | .mismatch m => m.message
  | .suffix cause => cause.message
  | .valueless => "number without a value"

end Fault

structure DecodeError where
  fault : Fault
  place : Stretch
  deriving DecidableEq, Repr

/-- What a reader finds in a node. -/
def datum : Node → Except DecodeError Datum
  | .scalar _ (.text s) => .ok (.text s)
  | .scalar _ (.integer n) => .ok (.integer n)
  | .scalar _ (.real x) => .ok (.real (Decimal.Layout.positional.write x))
  | .scalar _ (.boolean b) => .ok (.boolean b)
  | .scalar _ .datetime => .ok .mapping
  | .scalar place .valueless => .error ⟨.valueless, place⟩
  | .array .. => .ok .sequence
  | .table _ => .ok .mapping

def expected {α : Type} (what : String) (node : Node) : Except DecodeError α := do
  .error ⟨.mismatch ⟨← datum node, what⟩, node.place⟩

def decodeBoolean : Node → Except DecodeError Bool
  | .scalar _ (.boolean b) => .ok b
  | node => expected "a boolean" node

def decodeText (node : Node) : Except DecodeError String := do
  (← datum node).toText.mapError fun m => ⟨.mismatch m, node.place⟩

def decodeTexts : Node → Except DecodeError (List String)
  | .array _ _ items => items.mapM decodeText
  | node => expected "a sequence" node

/-- A bad character in a suffix is blamed on the given place. -/
def decodeSuffix (blamed : Stretch) (node : Node) : Except DecodeError Suffix := do
  (Suffix.parse (← decodeText node)).mapError fun e => ⟨.suffix e, blamed⟩

def unknown {α : Type} (key : Key) (known : List String) : Except DecodeError α :=
  .error ⟨.unknownField key.name known, key.place⟩

/-- The item of an array at an index, or a default past its end. -/
def itemOr {α : Type} (items : List Node) (i : Nat) (default : α)
    (decode : Node → Except DecodeError α) : Except DecodeError α :=
  match items[i]? with
  | some item => decode item
  | none => .ok default

/-- Decodes a section from its table or from an array of its settings. -/
def decodeSection {α : Type} (what : String) (known : List String) (default : α)
    (set : α → Key → Node → Except DecodeError α)
    (ofItems : Stretch → List Node → Except DecodeError α) : Node → Except DecodeError α
  | .table content => content.entries.foldlM (fun a e => set a e.1 e.2) default
  | .array place _ items => ofItems place items
  | .scalar place .datetime => .error ⟨.unknownField Toml.datetimeField known, place⟩
  | node => expected what node

namespace Reserved

def names : List String :=
  ["extend", "fields", "types"]

def set (r : Reserved) (key : Key) (node : Node) : Except DecodeError Reserved :=
  if key.name = "extend" then return { r with extend := ← decodeBoolean node }
  else if key.name = "fields" then return { r with fields := ← decodeTexts node }
  else if key.name = "types" then return { r with types := ← decodeTexts node }
  else unknown key names

def ofItems (_ : Stretch) (items : List Node) : Except DecodeError Reserved := do
  let extend ← itemOr items 0 true decodeBoolean
  let fields ← itemOr items 1 [] decodeTexts
  let types ← itemOr items 2 [] decodeTexts
  return { extend, fields, types }

def decode : Node → Except DecodeError Reserved :=
  decodeSection "struct ReservedConfig" names {} set ofItems

end Reserved

namespace Suffixes

def names : List String :=
  ["server", "client", "escape"]

def set (s : Suffixes) (key : Key) (node : Node) : Except DecodeError Suffixes :=
  if key.name = "server" then return { s with server := ← decodeSuffix node.place node }
  else if key.name = "client" then return { s with client := ← decodeSuffix node.place node }
  else if key.name = "escape" then return { s with escape := ← decodeSuffix node.place node }
  else unknown key names

/-- In an array, a bad character in a suffix is blamed on the whole array. -/
def ofItems (place : Stretch) (items : List Node) : Except DecodeError Suffixes := do
  let defaults : Suffixes := {}
  let server ← itemOr items 0 defaults.server (decodeSuffix place)
  let client ← itemOr items 1 defaults.client (decodeSuffix place)
  let escape ← itemOr items 2 defaults.escape (decodeSuffix place)
  return { server, client, escape }

def decode : Node → Except DecodeError Suffixes :=
  decodeSection "struct SuffixConfig" names {} set ofItems

end Suffixes

def names : List String :=
  ["reserved", "suffixes"]

def set (c : Config) (key : Key) (node : Node) : Except DecodeError Config :=
  if key.name = "reserved" then return { c with reserved := ← Reserved.decode node }
  else if key.name = "suffixes" then return { c with suffixes := ← Suffixes.decode node }
  else unknown key names

def decode (t : Table Node) : Except DecodeError Config :=
  t.entries.foldlM (fun c e => set c e.1 e.2) {}

end StubNames.Config
