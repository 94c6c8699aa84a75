import StubNames.Config.Decode
import StubNames.Files
/-!
# Configuration errors

Why a configuration is refused. An error knows its file, its cause and, where the text shows
one, the place to point at.
-/

namespace StubNames

inductive ConfigError where
  | unreadable (path : String) (cause : ReadFailure)
  /-- The text is not a document at all. -/
  | malformed (filename : String)
  | undecodable (filename : String) (cause : Config.Fault) (span : Span)
  /-- The suffix that escapes reserved names is empty. -/
  | emptyEscape (filename : String) (span : Option Span)
  | invalidReserved (filename : String) (name : String) (cause : IdentifierError)
      (span : Option Span)
  deriving DecidableEq, Repr

namespace ConfigError

def message : ConfigError → String
  | .unreadable path _ => s!"failed to read '{path}'"
  | .malformed _ => "failed to parse naming config"
  | .undecodable .. => "failed to parse naming config"
  | .emptyEscape .. => "invalid escape suffix ''"
  | .invalidReserved _ name _ _ => s!"reserved name '{name}' is not a valid identifier"

/-- A stable name for the kind of error. -/
def code : ConfigError → Option String
  | .unreadable .. => none
  | .malformed _ => some "protoname::parse_error"
  | .undecodable .. => some "protoname::parse_error"
  | .emptyEscape .. => some "protoname::invalid_suffix"
  | .invalidReserved .. => some "protoname::invalid_reserved"

def help : ConfigError → Option String
  | .emptyEscape .. => some "the escape suffix must not be empty"
  | _ => none

/-- The place that an error points at, with the note to write there. -/
def label? : ConfigError → Option (String × Span)
  | .unreadable .. => none
  | .malformed _ => none
  | .undecodable _ _ span => some ("parse error here", span)
  | .emptyEscape _ span => span.map fun s => ("invalid suffix", s)
  | .invalidReserved _ _ _ span => span.map fun s => ("not a valid identifier", s)

end ConfigError

end StubNames
