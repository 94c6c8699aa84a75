import StubNames.Naming.Resolver
/-!
# Name tables

The names of all entities of a graph by full name, in the order of declaration. The table also
holds the names of oneof options and of client stubs, and it is made in one pass that stops at
the first name that does not exist.
-/

namespace StubNames

open Schema (Entity Handle)

structure NameTable where
  names : Ordered.Map String Identifier := .empty
  oneofOptions : Ordered.Map String Identifier := .empty
  clients : Ordered.Map String Identifier := .empty

namespace NameTable

def record (r : Resolver) (t : NameTable) (h : Handle) (e : Entity) :
    Except NamingError NameTable := do
  let t ← match e.kind with
    | .field (some _) =>
      pure { t with oneofOptions := t.oneofOptions.insert e.fullName (← r.oneofOption h) }
    | .service => pure { t with clients := t.clients.insert e.fullName (← r.clientName h) }
    | _ => pure t
  return { t with names := t.names.insert e.fullName (← r.name h) }

def resolve (r : Resolver) : Except NamingError NameTable :=
  r.graph.toList.foldlM (fun t p => record r t p.1 p.2) {}

def get? (t : NameTable) (fullName : String) : Option Identifier :=
  t.names.get? fullName

def oneofOption? (t : NameTable) (fullName : String) : Option Identifier :=
  t.oneofOptions.get? fullName

def clientName? (t : NameTable) (fullName : String) : Option Identifier :=
  t.clients.get? fullName

def toList (t : NameTable) : List (String × Identifier) :=
  t.names.entries

def size (t : NameTable) : Nat :=
  t.names.size

def isEmpty (t : NameTable) : Bool :=
  t.names.isEmpty

/-- The named parts of the written table: names always, the other two only if there are any. -/
def parts (t : NameTable) : List (String × List (String × Identifier)) :=
  [("names", t.names.entries)]
    ++ (if t.oneofOptions.isEmpty then [] else [("oneof_options", t.oneofOptions.entries)])
    ++ (if t.clients.isEmpty then [] else [("clients", t.clients.entries)])

end NameTable

end StubNames
