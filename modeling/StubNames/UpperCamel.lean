import StubNames.Identifier
import StubNames.Segment
/-!
# Upper camel case

The conversion of a declared name into an identifier. Words are capitalised, runs of capitals
and of digits are copied, dots stay, and any other foreign character becomes an underscore.
A name that would not start with a letter starts with `X` instead.
-/

namespace StubNames

namespace Segment

/-- A separator after which the next word keeps its casing. -/
def isLiteralBreak (segment : Segment) : Bool :=
  segment.kind == .separator && segment.text != ['_']

def capitalized : List Char → List Char
  | [] => []
  | c :: cs => c.toUpper :: cs

def camel (previous : Option Segment) (segment : Segment) : List Char :=
  match segment.kind with
  | .word =>
    if previous.any isLiteralBreak then segment.text else capitalized segment.text
  | .acronym => segment.text
  | .digits => segment.text
  | .separator =>
    if segment.text = ['_'] then
      if previous.isNone then ['X'] else ['_']
    else if segment.text = ['.'] then ['.'] else ['_']

def camelAll (previous : Option Segment) : List Segment → List Char
  | [] => []
  | segment :: rest => segment.camel previous ++ camelAll (some segment) rest

end Segment

/-- Puts an `X` in front of a text that does not start with a letter. -/
def withLeadingLetter : List Char → List Char
  | [] => ['X']
  | c :: cs => if c.isAlpha then c :: cs else 'X' :: c :: cs

/-- The upper-camel form of a declared name: `foo_bar` is `FooBar`, `myJSON` is `MyJSON`,
`_my_field_name_2` is `XMyFieldName_2`. -/
def upperCamel (name : String) : Identifier :=
  ⟨String.ofList (withLeadingLetter (Segment.camelAll none (segments name)))⟩

end StubNames
