import StubNames.Ordered.Set
import StubNames.Suffix
/-!
# Naming conventions

A convention says which names generated code already takes and which suffixes names get. A name
that is taken is escaped by a suffix.
-/

namespace StubNames

structure Convention where
  /-- Names that fields and oneof groups may not take. -/
  reservedFields : Ordered.Set String
  /-- Names that messages and enums may not take. -/
  reservedTypes : Ordered.Set String
  serverSuffix : Suffix
  clientSuffix : Suffix
  escapeSuffix : Suffix
  deriving DecidableEq

namespace Convention

/-- The methods that every generated Go message has. -/
def goReservedFields : List String :=
  ["Reset", "String", "ProtoMessage", "Marshal", "Unmarshal", "ExtensionRangeArray",
    "ExtensionMap", "Descriptor"]

def go : Convention where
  reservedFields := .ofList goReservedFields
  reservedTypes := .empty
  serverSuffix := ⟨"Server", List.all_eq_true.1 rfl⟩
  clientSuffix := ⟨"Client", List.all_eq_true.1 rfl⟩
  escapeSuffix := ⟨"_", List.all_eq_true.1 rfl⟩

instance : Inhabited Convention := ⟨go⟩

def isReservedField (c : Convention) (name : String) : Bool :=
  name ∈ c.reservedFields

def isReservedType (c : Convention) (name : String) : Bool :=
  name ∈ c.reservedTypes

def escape (c : Convention) (name : Identifier) : Identifier :=
  name.withSuffix c.escapeSuffix

def safeFieldName (c : Convention) (name : Identifier) : Identifier :=
  if c.isReservedField name.text then c.escape name else name

def safeTypeName (c : Convention) (name : Identifier) : Identifier :=
  if c.isReservedType name.text then c.escape name else name

/-- Whether two conventions name everything alike: the order of reserved names is no matter. -/
def agrees (c d : Convention) : Bool :=
  c.reservedFields.sameMembers d.reservedFields && c.reservedTypes.sameMembers d.reservedTypes &&
    c.serverSuffix == d.serverSuffix && c.clientSuffix == d.clientSuffix &&
    c.escapeSuffix == d.escapeSuffix

end Convention

end StubNames
