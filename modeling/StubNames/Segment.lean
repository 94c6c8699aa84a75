/-!
# Segments of a declared name

A declared name is cut into words, runs of capitals, runs of digits and separators. An
underscore that introduces a lowercase letter only marks where a word begins and is dropped;
at the start of a name it is kept.
-/

namespace StubNames

inductive SegmentKind where
  /-- A letter and the lowercase letters after it. -/
  | word
  /-- Capitals that do not begin a word. -/
  | acronym
  | digits
  /-- One character that is neither a letter nor a digit. -/
  | separator
  deriving DecidableEq, Repr

structure Segment where
  kind : SegmentKind
  text : List Char
  deriving DecidableEq, Repr

namespace Segment

def startsLower : List Char → Bool
  | [] => false
  | c :: _ => c.isLower

/-- The segment that begins with `c`, and what is left of `rest` after it. The last of several
capitals belongs to the word it begins: `PDFTemplate` is cut after `PDF`. -/
def next (c : Char) (rest : List Char) : Segment × List Char :=
  if c.isDigit then
    (⟨.digits, c :: rest.takeWhile Char.isDigit⟩, rest.dropWhile Char.isDigit)
  else if c.isUpper then
    match rest.takeWhile Char.isUpper with
    | [] => (⟨.word, c :: rest.takeWhile Char.isLower⟩, rest.dropWhile Char.isLower)
    | capitals =>
      if startsLower (rest.dropWhile Char.isUpper) then
        (⟨.acronym, c :: capitals.dropLast⟩, rest.drop (capitals.length - 1))
      else
        (⟨.acronym, c :: capitals⟩, rest.dropWhile Char.isUpper)
  else if c.isLower then
    (⟨.word, c :: rest.takeWhile Char.isLower⟩, rest.dropWhile Char.isLower)
  else
    (⟨.separator, [c]⟩, rest)

theorem length_next_le (c : Char) (rest : List Char) :
    (next c rest).2.length ≤ rest.length := by
  have drop_le (p : Char → Bool) : (rest.dropWhile p).length ≤ rest.length :=
    (List.dropWhile_suffix p).length_le
  unfold next
  split
  · exact drop_le _
  · split
    · split
      · exact drop_le _
      · split
        · simp
        · exact drop_le _
    · split
      · exact drop_le _
      · exact Nat.le_refl _

/-- The segments of what is left of a name; `atStart` holds before its first character. -/
def scan (atStart : Bool) : List Char → List Segment
  | [] => []
  | c :: rest =>
    if c == '_' && !atStart && startsLower rest then
      scan false rest
    else
      (next c rest).1 :: scan false (next c rest).2
termination_by cs => cs.length
decreasing_by
  · simp
  · exact Nat.lt_succ_of_le (length_next_le c rest)

end Segment

def segments (name : String) : List Segment :=
  Segment.scan true name.toList

end StubNames
