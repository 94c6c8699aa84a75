import StubNames.Toml.Blank
import StubNames.Decimal.Literal
/-!
# Quotations

The four kinds of strings: basic and literal ones, on one line or on several. Each reader takes
the text after the opening quotes and returns the content and the text after the closing ones.
A string on several lines may hold one or two quotes right before the closing three.
-/

namespace StubNames.Toml

/-- How far an escape sequence has been read. -/
inductive Escaping where
  | outside
  /-- After a backslash. -/
  | opened
  /-- Within the digits of a character number. -/
  | digits (missing : Nat) (number : Nat)
  /-- After a backslash and blanks, before the end of the line. -/
  | lineEnd
  /-- After a backslash at the end of a line, before the next character that is not blank. -/
  | lineStart
  deriving DecidableEq

def simpleEscape? (c : Char) : Option Char :=
  if c = 'b' then some '\x08'
  else if c = 't' then some '\t'
  else if c = 'n' then some '\n'
  else if c = 'f' then some '\x0c'
  else if c = 'r' then some '\r'
  else if c = 'e' then some '\x1b'
  else if c = '"' then some '"'
  else if c = '\\' then some '\\'
  else none

def numberedEscape? (c : Char) : Option Nat :=
  if c = 'x' then some 2
  else if c = 'u' then some 4
  else if c = 'U' then some 8
  else none

def charOfNumber? (n : Nat) : Option Char :=
  if h : n.isValidChar then some (Char.ofNatAux n h) else none

/-- What the character after a backslash, or a digit of an escape by number, contributes:
characters of the content, and how the escape goes on. -/
def escapeStep (state : Escaping) (c : Char) : Option (List Char × Escaping) :=
  match state with
  | .digits missing number =>
    if Decimal.isHexDigit c then
      let number := 16 * number + Decimal.natOfDigits 16 [c]
      if missing ≤ 1 then (charOfNumber? number).map fun d => ([d], .outside)
      else some ([], .digits (missing - 1) number)
    else none
  | _ =>
    match simpleEscape? c with
    | some d => some ([d], .outside)
    | none => (numberedEscape? c).map fun n => ([], .digits n 0)

def basic (state : Escaping) : List Char → Option (List Char × List Char)
  | [] => none
  | c :: rest =>
    if state = .outside then
      if c = '"' then some ([], rest)
      else if c = '\\' then basic .opened rest
      else if isTextChar c then (basic .outside rest).map fun p => (c :: p.1, p.2)
      else none
    else
      match escapeStep state c with
      | some (content, state) => (basic state rest).map fun p => (content ++ p.1, p.2)
      | none => none

def literal : List Char → Option (List Char × List Char)
  | [] => none
  | c :: rest =>
    if c = '\'' then some ([], rest)
    else if isTextChar c then (literal rest).map fun p => (c :: p.1, p.2)
    else none

/-- The quotes of the content that stand right before the closing ones, after three quotes. -/
def closing (quote : Char) : List Char → List Char × List Char
  | a :: b :: rest =>
    if a = quote then
      if b = quote then ([quote, quote], rest) else ([quote], b :: rest)
    else ([], a :: b :: rest)
  | [a] => if a = quote then ([quote], []) else ([], [a])
  | [] => ([], [])

/-- A basic string on several lines. A backslash at the end of a line joins the next character
that is not blank to what stands before it. -/
def basicLines (state : Escaping) : List Char → Option (List Char × List Char)
  | [] => none
  | '\n' :: rest =>
    match state with
    | .outside => (basicLines .outside rest).map fun p => ('\n' :: p.1, p.2)
    | .digits .. => none
    | _ => basicLines .lineStart rest
  | '\r' :: '\n' :: rest =>
    match state with
    | .outside => (basicLines .outside rest).map fun p => ('\r' :: '\n' :: p.1, p.2)
    | .digits .. => none
    | _ => basicLines .lineStart rest
  | c :: rest =>
    match state with
    | .lineEnd => if isBlank c then basicLines .lineEnd rest else none
    | .digits missing number =>
      match escapeStep (.digits missing number) c with
      | some (content, state) => (basicLines state rest).map fun p => (content ++ p.1, p.2)
      | none => none
    | .opened =>
      if isBlank c then basicLines .lineEnd rest
      else
        match escapeStep .opened c with
        | some (content, state) => (basicLines state rest).map fun p => (content ++ p.1, p.2)
        | none => none
    | state =>
      if state = .lineStart && isBlank c then basicLines .lineStart rest
      else if c = '\\' then basicLines .opened rest
      else if c = '"' then
        match rest with
        | '"' :: '"' :: rest => some (closing '"' rest)
        | _ => (basicLines .outside rest).map fun p => ('"' :: p.1, p.2)
      else if isTextChar c then (basicLines .outside rest).map fun p => (c :: p.1, p.2)
      else none

def literalLines : List Char → Option (List Char × List Char)
  | [] => none
  | '\n' :: rest => (literalLines rest).map fun p => ('\n' :: p.1, p.2)
  | '\r' :: '\n' :: rest => (literalLines rest).map fun p => ('\r' :: '\n' :: p.1, p.2)
  | c :: rest =>
    if c = '\'' then
      match rest with
      | '\'' :: '\'' :: rest => some (closing '\'' rest)
      | _ => (literalLines rest).map fun p => ('\'' :: p.1, p.2)
    else if isTextChar c then (literalLines rest).map fun p => (c :: p.1, p.2)
    else none

/-- An end of line right after the opening quotes is not part of the string. -/
def skipFirstLineEnd : List Char → List Char
  | '\n' :: rest => rest
  | '\r' :: '\n' :: rest => rest
  | cs => cs

/-- The kinds of strings on one line, which also quote keys. -/
def quotedWord? : List Char → Option (Option (List Char × List Char))
  | '"' :: rest => some (basic .outside rest)
  | '\'' :: rest => some (literal rest)
  | _ => none

/-- The content of the string that a text begins with; the outer option tells whether it begins
with one at all. -/
def quotation? : List Char → Option (Option (List Char × List Char))
  | '"' :: '"' :: '"' :: rest => some (basicLines .outside (skipFirstLineEnd rest))
  | '\'' :: '\'' :: '\'' :: rest => some (literalLines (skipFirstLineEnd rest))
  | cs => quotedWord? cs

end StubNames.Toml
