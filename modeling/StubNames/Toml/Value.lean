import StubNames.Toml.Assignment
import StubNames.Toml.Quotation
import StubNames.Toml.Scalar
/-!
# Keys and values

Readers for keys, dotted keys and values. A reader takes the rest of a text and returns what it
read and the new rest. Keys have a bounded number of parts and values nest to a bounded depth; the
loops over lists take fuel, and the size of the text is always enough, since each round reads at
least one character.
-/

namespace StubNames.Toml

def isBareChar (c : Char) : Bool :=
  c.isAlphanum || c == '_' || c == '-'

def key? (cs : List Char) : Option (Key × List Char) := do
  let (name, rest) ← match quotedWord? cs with
    | some result => result
    | none =>
      match cs.takeWhile isBareChar with
      | [] => none
      | word => some (word, cs.dropWhile isBareChar)
  return (⟨String.ofList name, Stretch.between cs rest⟩, rest)

/-- How many parts a dotted key may have, and how deep brackets and braces may nest. -/
def maxDepth : Nat := 80

/-- At most the given number of keys with dots between them; blanks may surround the dots. -/
def keys? : Nat → List Char → Option ((List Key × Key) × List Char)
  | 0, _ => none
  | parts + 1, cs => do
    let (key, rest) ← key? cs
    match skipBlanks rest with
    | '.' :: after =>
      let ((path, last), rest) ← keys? parts (skipBlanks after)
      return ((key :: path, last), rest)
    | _ => return (([], key), rest)

def dottedKey? : List Char → Option ((List Key × Key) × List Char) :=
  keys? maxDepth

def assignment? (skip : List Char → Option (List Char))
    (value : List Char → Option (Node × List Char)) (cs : List Char) :
    Option (Assignment × List Char) := do
  let ((path, key), rest) ← dottedKey? cs
  match ← skip rest with
  | '=' :: rest =>
    let (value, rest) ← value (← skip rest)
    return (⟨path, key, value⟩, rest)
  | _ => none

/-- Items with commas between them up to a closing bracket; a comma may follow the last one. -/
def items? {α : Type} (close : Char) (item : List Char → Option (α × List Char)) (fuel : Nat)
    (cs : List Char) : Option (List α × List Char) :=
  match fuel with
  | 0 => none
  | fuel + 1 => do
    match ← skipGap false cs with
    | [] => none
    | c :: rest =>
      if c = close then return ([], rest)
      else
        let (first, rest) ← item (c :: rest)
        match ← skipGap false rest with
        | [] => none
        | c :: rest =>
          if c = close then return ([first], rest)
          else if c = ',' then
            let (more, rest) ← items? close item fuel rest
            return (first :: more, rest)
          else none

def value? : Nat → List Char → Option (Node × List Char)
  | depth, cs =>
    match depth, cs with
    | depth + 1, '[' :: rest => do
      let (items, rest) ← items? ']' (value? depth) cs.length rest
      return (.array (Stretch.between cs rest) false items, rest)
    | depth + 1, '\x7b' :: rest => do
      let (body, rest) ← items? '\x7d' (assignment? (skipGap false) (value? depth)) cs.length rest
      let content ← (Table.empty (Stretch.between cs rest) .braces).assignAll body
      return (.table content, rest)
    | _, cs =>
      match quotation? cs with
      | some result =>
        result.map fun (content, rest) =>
          (.scalar (Stretch.between cs rest) (.text (String.ofList content)), rest)
      | none =>
        (Scalar.unquoted? cs).map fun (s, rest) => (.scalar (Stretch.between cs rest) s, rest)

end StubNames.Toml
