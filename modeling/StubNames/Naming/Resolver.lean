import StubNames.Convention
import StubNames.Schema.Graph
import StubNames.UpperCamel
/-!
# Names of schema entities

The identifier of every entity of a graph under a convention. Messages and enums carry the names
of the messages around them, enum values those of their enum. Fields, oneof groups and methods
are named on their own, services carry the server suffix, and a file is named after its package.
-/

namespace StubNames

open Schema (Entity Graph Handle Kind)

/-- The names that only some entities have. -/
inductive NameRequest where
  | oneofOption
  | clientName
  | serverName
  deriving DecidableEq, Repr

namespace NameRequest

def label : NameRequest → String
  | .oneofOption => "oneof_option"
  | .clientName => "client_name"
  | .serverName => "server_name"

def subject : NameRequest → String
  | .oneofOption => "field"
  | .clientName => "service"
  | .serverName => "service"

end NameRequest

inductive NamingError where
  | unknownEntity (h : Handle)
  | wrongKind (request : NameRequest) (found : Kind)
  | notOneofMember (fullName : String)
  /-- A declared name that is kept as it is, and is not an identifier. -/
  | invalidIdentifier (name : String) (cause : IdentifierError)
  deriving DecidableEq, Repr

namespace NamingError

def message : NamingError → String
  | .unknownEntity h => s!"entity {h.toText} does not belong to the schema graph"
  | .wrongKind request found =>
    s!"{request.label} expects a {request.subject}, found {found.label}"
  | .notOneofMember fullName => s!"field '{fullName}' is not a member of a oneof"
  | .invalidIdentifier name _ => s!"'{name}' cannot be used verbatim as an identifier"

def usageMessage (e : NamingError) : String :=
  s!"naming usage error: {e.message}"

end NamingError

def verbatim (name : String) : Except NamingError Identifier :=
  (Identifier.parse name).mapError (.invalidIdentifier name)

/-- The part of a dotted path after its last dot. -/
def lastPart (path : String) : String :=
  String.ofList (path.toList.reverse.takeWhile (· != '.')).reverse

structure Resolver where
  graph : Graph
  convention : Convention := .go

namespace Resolver

def entity (r : Resolver) (h : Handle) : Except NamingError Entity :=
  match r.graph.get? h with
  | some e => .ok e
  | none => .error (.unknownEntity h)

/-- The name of a message or enum: its own, after the name of the message around it if there is
one. Each part is escaped on its own. -/
def typeName (r : Resolver) (h : Handle) : Except NamingError Identifier :=
  match _he : r.graph.get? h with
  | none => .error (.unknownEntity h)
  | some e =>
    let own := r.convention.safeTypeName (upperCamel e.name)
    match _hp : e.parent with
    | none => .ok own
    | some p =>
      match r.graph.get? p with
      | none => .error (.unknownEntity p)
      | some scope =>
        if scope.kind = .message then (r.typeName p).map fun outer => outer.join own
        else .ok own
termination_by h.index
decreasing_by exact Graph.parent_lt_of_get? _he _hp

def fieldName (r : Resolver) (e : Entity) : Identifier :=
  r.convention.safeFieldName (upperCamel e.name)

def linked (h : Handle) : Option Handle → Except NamingError Handle
  | some target => .ok target
  | none => .error (.unknownEntity h)

def name (r : Resolver) (h : Handle) : Except NamingError Identifier := do
  let e ← r.entity h
  match e.kind with
  | .file =>
    let package ← r.entity (← linked h e.package)
    verbatim (lastPart package.name)
  | .package => verbatim (lastPart e.name)
  | .message => r.typeName h
  | .enumeration => r.typeName h
  | .enumValue =>
    let value ← verbatim e.name
    let outer ← r.typeName (← linked h e.parent)
    return outer.join value
  | .field _ => return r.fieldName e
  | .oneofGroup => return r.fieldName e
  | .service => return (upperCamel e.name).withSuffix r.convention.serverSuffix
  | .method => return upperCamel e.name

/-- The name of the type that wraps one alternative of a oneof: the message's and the field's. -/
def oneofOption (r : Resolver) (h : Handle) : Except NamingError Identifier := do
  let e ← r.entity h
  match e.kind with
  | .field none => throw (.notOneofMember e.fullName)
  | .field (some _) =>
    let message ← r.typeName (← linked h e.parent)
    return message.join (r.fieldName e)
  | found => throw (.wrongKind .oneofOption found)

def serviceName (r : Resolver) (request : NameRequest) (suffix : Suffix) (h : Handle) :
    Except NamingError Identifier := do
  let e ← r.entity h
  if e.kind = .service then return (upperCamel e.name).withSuffix suffix
  else throw (.wrongKind request e.kind)

def clientName (r : Resolver) : Handle → Except NamingError Identifier :=
  r.serviceName .clientName r.convention.clientSuffix

def serverName (r : Resolver) : Handle → Except NamingError Identifier :=
  r.serviceName .serverName r.convention.serverSuffix

end Resolver

end StubNames
