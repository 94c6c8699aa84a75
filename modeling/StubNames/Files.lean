/-!
# File trees

A directory with everything under it, and the reading of a file by its path. A path is read
name by name from the root; `.` and empty names stay where they are, `..` goes back. Nothing is
known of what lies outside.
-/

namespace StubNames

inductive ReadFailure where
  | notFound
  | isADirectory
  | notADirectory
  | invalidData
  /-- The path holds a character that no path can hold. -/
  | invalidInput
  /-- The path or a name in it is too long. -/
  | invalidFilename
  deriving DecidableEq, Repr

inductive FileTree where
  | file (bytes : List UInt8)
  | directory (entries : List (String × FileTree))

namespace FileTree

def entry? (t : FileTree) (name : String) : Option FileTree :=
  match t with
  | .file _ => none
  | .directory entries => (entries.find? fun e => e.1 = name).map Prod.snd

def names (path : String) : List String :=
  path.splitOn "/"

def maxNameSize : Nat := 255

def maxPathSize : Nat := 4095

/-- Follows names from a directory, given the directories on the way to it, innermost first. -/
def follow (above : List FileTree) (here : FileTree) : List String → Except ReadFailure FileTree
  | [] => .ok here
  | name :: rest =>
    match here with
    | .file _ => .error .notADirectory
    | .directory _ =>
      if name = "" || name = "." then follow above here rest
      else if name = ".." then
        match above with
        | [] => follow [] (.directory []) rest
        | up :: above => follow above up rest
      else if maxNameSize < name.utf8ByteSize then .error .invalidFilename
      else
        match here.entry? name with
        | some next => follow (here :: above) next rest
        | none => .error .notFound

/-- Where a path starts: at the root of the tree, or outside if it begins with a slash. -/
def origin (t : FileTree) (path : String) : FileTree :=
  if path.startsWith "/" then .directory [] else t

def read (t : FileTree) (path : String) : Except ReadFailure (List UInt8) :=
  if path.contains '\x00' then .error .invalidInput
  else if path = "" then .error .notFound
  else if maxPathSize < path.utf8ByteSize then .error .invalidFilename
  else
    match follow [] (t.origin path) (names path) with
    | .error e => .error e
    | .ok (.directory _) => .error .isADirectory
    | .ok (.file bytes) => .ok bytes

def readText (t : FileTree) (path : String) : Except ReadFailure String := do
  let bytes ← t.read path
  match String.fromUTF8? bytes.toByteArray with
  | some text => return text
  | none => throw .invalidData

/-- The names on the way to a path from the root, without detours. -/
def normalize (names : List String) : List String :=
  (names.foldl (fun above name =>
    if name = "" || name = "." then above
    else if name = ".." then above.drop 1
    else name :: above) []).reverse

/-- The tree with a file put at a place whose directories are there; otherwise it stays as it
is. -/
def put (bytes : List UInt8) : List String → FileTree → FileTree
  | _, .file old => .file old
  | [], t => t
  | [name], .directory entries =>
    .directory ((entries.filter fun e => e.1 ≠ name) ++ [(name, .file bytes)])
  | name :: rest, .directory entries =>
    .directory (entries.map fun e => if e.1 = name then (e.1, put bytes rest e.2) else e)

def create (t : FileTree) (path : String) (bytes : List UInt8) : FileTree :=
  put bytes (normalize (names path)) t

end FileTree

end StubNames
