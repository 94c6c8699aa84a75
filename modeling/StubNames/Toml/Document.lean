import StubNames.Toml.Value
/-!
# Documents

A document is read line by line into an outline, and the outline is made into a table. A text
that is not a document has no table; nothing more is said about why.
-/

namespace StubNames.Toml

/-- The rest of a header after its opening brackets. -/
def header? (opening : List Char) (repeated : Bool) (cs : List Char) :
    Option (Section × List Char) := do
  let ((path, key), rest) ← dottedKey? (skipBlanks cs)
  match repeated, skipBlanks rest with
  | false, ']' :: rest => return (⟨path, key, false, Stretch.between opening rest, []⟩, rest)
  | true, ']' :: ']' :: rest => return (⟨path, key, true, Stretch.between opening rest, []⟩, rest)
  | _, _ => none

inductive Line where
  | blank
  | assignment (a : Assignment)
  /-- A header, as a section without assignments. -/
  | header (s : Section)

def content? (cs : List Char) : Option (Line × List Char) :=
  match cs with
  | [] => some (.blank, [])
  | '[' :: '[' :: rest => (header? cs true rest).map fun p => (.header p.1, p.2)
  | '[' :: rest => (header? cs false rest).map fun p => (.header p.1, p.2)
  | c :: _ =>
    if c = '#' || c = '\n' || c = '\r' then some (.blank, cs)
    else
      (assignment? (fun cs => some (skipBlanks cs)) (value? maxDepth) cs).map fun p =>
        (.assignment p.1, p.2)

def line? (cs : List Char) : Option (Line × List Char) := do
  let (line, rest) ← content? (skipBlanks cs)
  return (line, ← lineEnd? rest)

/-- Puts a line before those that follow it: assignments go under the header before them. -/
def Outline.cons (o : Outline) : Line → Outline
  | .blank => o
  | .assignment a => { o with top := a :: o.top }
  | .header s => ⟨[], { s with body := o.top } :: o.sections⟩

def outline? (fuel : Nat) (cs : List Char) : Option Outline :=
  match fuel, cs with
  | _, [] => some ⟨[], []⟩
  | 0, _ => none
  | fuel + 1, cs => do
    let (line, rest) ← line? cs
    let o ← outline? fuel rest
    return o.cons line

def skipByteOrderMark : List Char → List Char
  | '\uFEFF' :: rest => rest
  | cs => cs

def document? (s : String) : Option (Table Node) := do
  let cs := skipByteOrderMark s.toList
  let o ← outline? cs.length cs
  o.toTable

end StubNames.Toml
