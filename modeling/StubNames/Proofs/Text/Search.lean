import Mathlib.Order.Bounds.Basic
import StubNames.Text.Search
/-!
# Where a quoted value is found

The search compares characters and answers with an offset in bytes.  It finds what a comparison of
the bytes at every offset would find first: a double quote is one byte that is part of no other
character, so bytes that spell a quoted value begin and end where characters do.  The place that is
reported lies inside of the text, between two quotes, and its bytes are those of the value.
-/

namespace StubNames.Text

/-! ## Occurrences among characters -/

/-- The pattern occurs in the characters, behind as many bytes as the offset says. -/
def OccursAt (pattern cs : List Char) (offset : Nat) : Prop :=
  ∃ front back, cs = front ++ pattern ++ back ∧ offset = (String.ofList front).utf8ByteSize

section

variable {pattern cs : List Char} {c : Char} {offset p : Nat}

theorem utf8ByteSize_ofList_cons :
    (String.ofList (c :: cs)).utf8ByteSize = c.utf8Size + (String.ofList cs).utf8ByteSize := by
  rw [String.ofList_cons, String.utf8ByteSize_append, String.utf8ByteSize_singleton]

theorem occursAt_nil_iff : OccursAt pattern [] p ↔ pattern = [] ∧ p = 0 := by
  constructor
  · rintro ⟨front, back, hnil, rfl⟩
    obtain ⟨rfl, rfl, rfl⟩ : front = [] ∧ pattern = [] ∧ back = [] := by simpa using hnil.symm
    exact ⟨rfl, rfl⟩
  · rintro ⟨rfl, rfl⟩
    exact ⟨[], [], rfl, rfl⟩

theorem occursAt_cons_iff : OccursAt pattern (c :: cs) p ↔
    (pattern <+: c :: cs ∧ p = 0) ∨ ∃ q, p = c.utf8Size + q ∧ OccursAt pattern cs q := by
  constructor
  · rintro ⟨front, back, hcons, rfl⟩
    cases front with
    | nil => exact .inl ⟨⟨back, hcons.symm⟩, rfl⟩
    | cons d front =>
        obtain ⟨rfl, rfl⟩ := List.cons.inj hcons
        exact .inr ⟨_, utf8ByteSize_ofList_cons, front, back, rfl, rfl⟩
  · rintro (⟨⟨back, hback⟩, rfl⟩ | ⟨q, rfl, front, back, rfl, rfl⟩)
    · exact ⟨[], back, hback.symm, rfl⟩
    · exact ⟨c :: front, back, rfl, utf8ByteSize_ofList_cons.symm⟩

theorem isLeast_of_findFrom? {r : Nat} (h : findFrom? pattern offset cs = some r) :
    ∃ p, r = offset + p ∧ IsLeast {p | OccursAt pattern cs p} p := by
  induction cs generalizing offset with
  | nil =>
      simp only [findFrom?, Option.ite_none_right_eq_some, List.isEmpty_iff] at h
      obtain ⟨hempty, hr⟩ := h
      cases hr
      exact ⟨0, rfl, occursAt_nil_iff.2 ⟨hempty, rfl⟩, fun q _ => Nat.zero_le q⟩
  | cons c cs ih =>
      unfold findFrom? at h
      split at h
      · next hprefix =>
          cases h
          have hhere := occursAt_cons_iff.2 (.inl ⟨List.isPrefixOf_iff_prefix.1 hprefix, rfl⟩)
          exact ⟨0, rfl, hhere, fun q _ => Nat.zero_le q⟩
      · next hprefix =>
          obtain ⟨p, rfl, hp, hleast⟩ := ih h
          refine ⟨c.utf8Size + p, by omega, occursAt_cons_iff.2 (.inr ⟨p, rfl, hp⟩), ?_⟩
          -- The pattern does not occur here, so any other occurrence is one in the rest.
          intro q hq
          rcases occursAt_cons_iff.1 hq with ⟨hhere, -⟩ | ⟨q', rfl, hq'⟩
          · exact absurd (List.isPrefixOf_iff_prefix.2 hhere) hprefix
          · exact Nat.add_le_add_left (hleast hq') c.utf8Size

theorem not_occursAt_of_findFrom? (h : findFrom? pattern offset cs = none) (p : Nat) :
    ¬OccursAt pattern cs p := by
  induction cs generalizing offset p with
  | nil =>
      rw [occursAt_nil_iff]
      rintro ⟨rfl, -⟩
      cases h
  | cons c cs ih =>
      unfold findFrom? at h
      split at h
      · cases h
      · next hprefix =>
          intro hp
          rcases occursAt_cons_iff.1 hp with ⟨hhere, -⟩ | ⟨q, -, hq⟩
          · exact hprefix (List.isPrefixOf_iff_prefix.2 hhere)
          · exact ih h q hq

end

/-! ## Occurrences among bytes -/

def bytes (s : String) : List UInt8 :=
  s.toUTF8.data.toList

variable {s t value text : String} {p : Nat}

theorem length_bytes : (bytes s).length = s.utf8ByteSize :=
  Array.length_toList

theorem bytes_append : bytes (s ++ t) = bytes s ++ bytes t := by
  simp [bytes, String.toByteArray_append, ByteArray.data_append]

theorem drop_bytes_append : (bytes (s ++ t)).drop s.utf8ByteSize = bytes t := by
  rw [bytes_append]
  exact List.drop_left' length_bytes

/-- Texts whose bytes begin alike begin alike. -/
theorem bytes_isPrefix_iff : bytes s <+: bytes t ↔ ∃ back, t = s ++ back := by
  constructor
  · rintro ⟨tail, htail⟩
    have hbytes : s.toList.utf8Encode ++ ⟨tail.toArray⟩ = t.toList.utf8Encode := by
      rw [String.utf8Encode_toList, String.utf8Encode_toList]
      apply ByteArray.ext
      rw [ByteArray.data_append, ← Array.toList_inj, Array.toList_append]
      exact htail
    obtain ⟨back, hback⟩ := List.isPrefix_of_utf8Encode_append_eq_utf8Encode _ hbytes
    exact ⟨String.ofList back, by simp [← String.toList_inj, ← hback]⟩
  · rintro ⟨back, rfl⟩
    exact ⟨bytes back, bytes_append.symm⟩

/-- The first byte of a text is none of a character's later bytes, so the bytes of a text are found
only where characters begin. -/
theorem isValid_of_bytes_isPrefix (hs : s ≠ "") (h : bytes s <+: (bytes t).drop p) :
    (⟨p⟩ : String.Pos.Raw).IsValid t := by
  have hpos : 0 < s.utf8ByteSize := Nat.pos_of_ne_zero (mt String.utf8ByteSize_eq_zero_iff.1 hs)
  have hle : s.utf8ByteSize ≤ t.utf8ByteSize - p := by
    rw [← length_bytes, ← length_bytes, ← List.length_drop]
    exact h.length_le
  have hlt : p < t.utf8ByteSize := by omega
  rw [String.Pos.Raw.isValid_iff_isUTF8FirstByte]
  refine .inr ⟨hlt, ?_⟩
  have hsame : t.getUTF8Byte ⟨p⟩ hlt = s.getUTF8Byte 0 hpos := by
    have hfirst := h.getElem (i := 0) (by rw [length_bytes]; exact hpos)
    rw [List.getElem_drop] at hfirst
    exact hfirst.symm
  rw [hsame]
  exact String.isUTF8FirstByte_getUTF8Byte_zero

/-- Bytes that spell a text begin and end where characters do. -/
theorem bytes_isPrefix_drop_iff (hs : s ≠ "") : bytes s <+: (bytes t).drop p ↔
    ∃ front back, t = front ++ s ++ back ∧ p = front.utf8ByteSize := by
  constructor
  · intro h
    obtain ⟨front, rest, rfl, hp⟩ :=
      String.Pos.Raw.isValid_iff_exists_append.1 (isValid_of_bytes_isPrefix hs h)
    obtain rfl : p = front.utf8ByteSize := congrArg String.Pos.Raw.byteIdx hp
    -- Behind whole characters the bytes are those of a text, and decide its characters.
    rw [drop_bytes_append, bytes_isPrefix_iff] at h
    obtain ⟨back, rfl⟩ := h
    exact ⟨front, back, String.append_assoc.symm, rfl⟩
  · rintro ⟨front, back, rfl, rfl⟩
    rw [String.append_assoc, drop_bytes_append, bytes_append]
    exact List.prefix_append _ _

/-! ## Quoted values -/

def inQuotes (value : String) : String :=
  "\"" ++ value ++ "\""

/-- The bytes of a text spell the value between double quotes from an offset on. -/
def QuotedAt (value text : String) (offset : Nat) : Prop :=
  bytes (inQuotes value) <+: (bytes text).drop offset

/-- The place of a value in a text: it lies between two double quotes and where characters begin and
end, and its bytes are those of the value.  A double quote is the byte 34. -/
structure Covers (span : Span) (value text : String) : Prop where
  end_le : span.offset + span.length ≤ text.utf8ByteSize
  isValid_offset : (⟨span.offset⟩ : String.Pos.Raw).IsValid text
  isValid_end : (⟨span.offset + span.length⟩ : String.Pos.Raw).IsValid text
  bytes_eq : ((bytes text).drop span.offset).take span.length = bytes value
  quote_before : ∃ i, span.offset = i + 1 ∧ (bytes text)[i]? = some 34
  quote_after : (bytes text)[span.offset + span.length]? = some 34

theorem inQuotes_ne_empty : inQuotes value ≠ "" := by
  simp [inQuotes]

theorem quotedAt_iff_exists_append : QuotedAt value text p ↔
    ∃ front back, text = front ++ inQuotes value ++ back ∧ p = front.utf8ByteSize :=
  bytes_isPrefix_drop_iff inQuotes_ne_empty

/-- What the characters show is what the bytes spell. -/
theorem quotedAt_iff_occursAt :
    QuotedAt value text p ↔ OccursAt (inQuotes value).toList text.toList p := by
  rw [quotedAt_iff_exists_append]
  constructor
  · rintro ⟨front, back, rfl, rfl⟩
    exact ⟨front.toList, back.toList, by simp, by rw [String.ofList_toList]⟩
  · rintro ⟨front, back, htext, rfl⟩
    refine ⟨String.ofList front, String.ofList back, ?_, rfl⟩
    simp [← String.toList_inj, htext]

theorem toList_inQuotes : (inQuotes value).toList = ['"'] ++ value.toList ++ ['"'] := by
  simp [inQuotes]

theorem isLeast_of_findQuoted? {span : Span} (h : findQuoted? value text = some span) :
    ∃ p, IsLeast {p | QuotedAt value text p} p ∧ span = ⟨p + 1, value.utf8ByteSize⟩ := by
  rw [findQuoted?, ← toList_inQuotes] at h
  obtain ⟨r, hfind, rfl⟩ := Option.map_eq_some_iff.1 h
  obtain ⟨p, rfl, hleast⟩ := isLeast_of_findFrom? hfind
  simp only [← quotedAt_iff_occursAt] at hleast
  exact ⟨p, hleast, by rw [Nat.zero_add]⟩

theorem not_quotedAt_of_findQuoted? (h : findQuoted? value text = none) (p : Nat) :
    ¬QuotedAt value text p := by
  rw [findQuoted?, ← toList_inQuotes, Option.map_eq_none_iff] at h
  rw [quotedAt_iff_occursAt]
  exact not_occursAt_of_findFrom? h p

theorem findQuoted?_eq_some_iff {span : Span} : findQuoted? value text = some span ↔
    ∃ p, IsLeast {p | QuotedAt value text p} p ∧ span = ⟨p + 1, value.utf8ByteSize⟩ := by
  constructor
  · exact isLeast_of_findQuoted?
  · rintro ⟨p, hleast, rfl⟩
    cases hfind : findQuoted? value text with
    | none => exact absurd hleast.1 (not_quotedAt_of_findQuoted? hfind p)
    | some span =>
        obtain ⟨q, hleast', rfl⟩ := isLeast_of_findQuoted? hfind
        rw [hleast.unique hleast']

theorem findQuoted?_eq_none_iff :
    findQuoted? value text = none ↔ ∀ p, ¬QuotedAt value text p := by
  constructor
  · exact not_quotedAt_of_findQuoted?
  · intro hnever
    cases hfind : findQuoted? value text with
    | none => rfl
    | some span =>
        obtain ⟨p, hleast, -⟩ := isLeast_of_findQuoted? hfind
        exact absurd hleast.1 (hnever p)

theorem getElem?_bytes_quote : (bytes (s ++ "\"" ++ t))[s.utf8ByteSize]? = some 34 := by
  have hquote : bytes "\"" = [34] := rfl
  rw [String.append_assoc, bytes_append, bytes_append, hquote,
    List.getElem?_append_right (Nat.le_of_eq length_bytes), length_bytes, Nat.sub_self]
  rfl

theorem covers_of_quotedAt (h : QuotedAt value text p) :
    Covers ⟨p + 1, value.utf8ByteSize⟩ value text := by
  obtain ⟨front, back, htext, rfl⟩ := quotedAt_iff_exists_append.1 h
  have hopened : text = front ++ "\"" ++ (value ++ ("\"" ++ back)) := by
    rw [htext, inQuotes]
    simp only [String.append_assoc]
  have hclosed : text = front ++ "\"" ++ value ++ "\"" ++ back := by
    rw [hopened]
    simp only [String.append_assoc]
  have hoffset : (front ++ "\"").utf8ByteSize = front.utf8ByteSize + 1 := by
    rw [String.utf8ByteSize_append]
    rfl
  have hend : (front ++ "\"" ++ value).utf8ByteSize =
      front.utf8ByteSize + 1 + value.utf8ByteSize := by
    rw [String.utf8ByteSize_append, hoffset]
  have hvalid : (⟨front.utf8ByteSize + 1 + value.utf8ByteSize⟩ : String.Pos.Raw).IsValid text := by
    rw [← hend]
    exact String.Pos.Raw.isValid_iff_exists_append.2
      ⟨_, _, hclosed.trans String.append_assoc, rfl⟩
  refine ⟨hvalid.le_utf8ByteSize, ?_, hvalid, ?_, ⟨front.utf8ByteSize, rfl, ?_⟩, ?_⟩
  · rw [← hoffset]
    exact String.Pos.Raw.isValid_iff_exists_append.2 ⟨_, _, hopened, rfl⟩
  · rw [hopened, ← hoffset, drop_bytes_append, bytes_append]
    exact List.take_left' length_bytes
  · rw [hopened]
    exact getElem?_bytes_quote
  · rw [hclosed, ← hend]
    exact getElem?_bytes_quote

end StubNames.Text
