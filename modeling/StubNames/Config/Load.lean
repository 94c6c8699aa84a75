import StubNames.Config.Error
import StubNames.Toml.Document
import StubNames.Text.Search
/-!
# Loading configurations

A configuration is read from a text, which must be a document of the right shape, and then
validated: the escape suffix is not empty, and every reserved name is a plain identifier. Of two
faults of shape and of syntax, the report is of syntax; numbers without a value that nobody asked
for are no fault. `loadWith` is given what reads documents; `load` reads TOML.
-/

namespace StubNames.Config

def firstInvalid? : List String → Option (String × IdentifierError)
  | [] => none
  | name :: names =>
    match Identifier.Grammar.plain.fault? name with
    | some e => some (name, e)
    | none => firstInvalid? names

/-- The suffix is checked first, then the reserved fields, then the reserved types. -/
def validate (filename text : String) (c : Config) : Except ConfigError Unit :=
  if c.suffixes.escape.isEmpty then
    .error (.emptyEscape filename (Text.findQuoted? c.suffixes.escape.text text))
  else
    match firstInvalid? (c.reserved.fields ++ c.reserved.types) with
    | some (name, cause) =>
      .error (.invalidReserved filename name cause (Text.findQuoted? name text))
    | none => .ok ()

/-- What turns a text into a document, or into nothing if the text is not one. -/
abbrev Reader :=
  String → Option (Toml.Table Toml.Node)

/-- Reads a text as a configuration without validating it. -/
def parse (read : Reader) (filename text : String) : Except ConfigError Config :=
  match read text with
  | none => .error (.malformed filename)
  | some t =>
    (decode t).mapError fun e =>
      if t.isReadable then .undecodable filename e.fault (e.place.toSpan text.utf8ByteSize)
      else .malformed filename

/-- The name that errors show for a text without a file. -/
def defaultFilename : String :=
  "protoname.toml"

def loadWith (read : Reader) (filename text : String) : Except ConfigError Config := do
  let c ← parse read filename text
  validate filename text c
  return c

def load (filename text : String) : Except ConfigError Config :=
  loadWith Toml.document? filename text

def loadFile (files : FileTree) (path : String) : Except ConfigError Config :=
  match files.readText path with
  | .error cause => .error (.unreadable path cause)
  | .ok text => load path text

end StubNames.Config
