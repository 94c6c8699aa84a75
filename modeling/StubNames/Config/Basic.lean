import StubNames.Convention
/-!
# Naming configurations

What a configuration file can set: reserved names, added to the built-in ones or in their place,
and the suffixes. A configuration describes a convention.
-/

namespace StubNames

namespace Config

structure Reserved where
  /-- Whether the names are added to the built-in ones. -/
  extend : Bool := true
  fields : List String := []
  types : List String := []
  deriving DecidableEq, Repr

structure Suffixes where
  server : Suffix := Convention.go.serverSuffix
  client : Suffix := Convention.go.clientSuffix
  escape : Suffix := Convention.go.escapeSuffix
  deriving DecidableEq, Repr

end Config

structure Config where
  reserved : Config.Reserved := {}
  suffixes : Config.Suffixes := {}
  deriving DecidableEq, Repr

namespace Config

def convention (c : Config) : Convention :=
  let base := Convention.go
  { reservedFields :=
      (if c.reserved.extend then base.reservedFields else .empty).insertAll c.reserved.fields
    reservedTypes :=
      (if c.reserved.extend then base.reservedTypes else .empty).insertAll c.reserved.types
    serverSuffix := c.suffixes.server
    clientSuffix := c.suffixes.client
    escapeSuffix := c.suffixes.escape }

end Config

end StubNames
