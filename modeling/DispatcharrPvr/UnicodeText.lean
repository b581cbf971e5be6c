import DispatcharrPvr.RecurringRule

/-!
# UnicodeText

The text primitives of the series rule matching (`UnicodeText.cpp`): UTF-8
decoding forward and backward, `str.strip()`, the case folding of the database
and its word characters.

The generated tables are a parameter, in the order the binary searches on them
rely on.  A code point is a number, a byte that is not part of a valid sequence
one above all of them.
-/

namespace DispatcharrPvr

/-! ## the tables -/

/-- `UpperRange`. -/
structure UpperRange where
  first : Nat
  last : Nat
  delta : Int
  stride : Nat

/-- `CodePointRange`. -/
structure CodePointRange where
  first : Nat
  last : Nat

/-- `kUpperRanges` and `kAlnumRanges`. -/
structure UnicodeTables where
  upperRanges : List UpperRange
  alnumRanges : List CodePointRange
  upperRanges_sorted : upperRanges.Pairwise fun r s => r.first < s.first
  alnumRanges_sorted : alnumRanges.Pairwise fun r s => r.first < s.first

/-- `kInvalidByteBase`. -/
def invalidByteBase : Nat := 0x110000

/-! ## code points -/

section CodePoints

variable (tables : UnicodeTables)

/-- `SimpleUpper`. -/
def simpleUpper (cp : Nat) : Nat :=
  if cp < 0x80 then if 97 ≤ cp ∧ cp ≤ 122 then cp - 32 else cp
  else if cp > 0x10FFFF then cp
  else
    match (tables.upperRanges.takeWhile fun range => range.first ≤ cp).getLast? with
    | none => cp
    | some range =>
        if cp > range.last ∨ (cp - range.first) % range.stride ≠ 0 then cp
        else ((cp + range.delta) % 4294967296).toNat

/-- `IsDatabaseWordCodePoint`. -/
def isDatabaseWordCodePoint (cp : Nat) : Bool :=
  if cp < 0x80 then
    cp = 95 ∨ (48 ≤ cp ∧ cp ≤ 57) ∨ (65 ≤ cp ∧ cp ≤ 90) ∨ (97 ≤ cp ∧ cp ≤ 122)
  else if cp > 0x10FFFF then false
  else
    match (tables.alnumRanges.takeWhile fun range => range.first ≤ cp).getLast? with
    | none => false
    | some range => cp ≤ range.last

end CodePoints

/-- `AppendUtf8`, the bytes it appends. -/
def appendUtf8 (cp : Nat) : ByteString :=
  if cp < 0x80 then [cp.toUInt8]
  else if cp < 0x800 then [(0xC0 ||| cp >>> 6).toUInt8, (0x80 ||| cp &&& 0x3F).toUInt8]
  else if cp < 0x10000 then
    [(0xE0 ||| cp >>> 12).toUInt8, (0x80 ||| cp >>> 6 &&& 0x3F).toUInt8,
      (0x80 ||| cp &&& 0x3F).toUInt8]
  else
    [(0xF0 ||| cp >>> 18).toUInt8, (0x80 ||| cp >>> 12 &&& 0x3F).toUInt8,
      (0x80 ||| cp >>> 6 &&& 0x3F).toUInt8, (0x80 ||| cp &&& 0x3F).toUInt8]

theorem appendUtf8_ne_nil (cp : Nat) : appendUtf8 cp ≠ [] := by
  unfold appendUtf8
  split
  · exact List.cons_ne_nil _ _
  · split
    · exact List.cons_ne_nil _ _
    · split <;> exact List.cons_ne_nil _ _

/-- `IsPythonWhitespace`. -/
def isPythonWhitespace (cp : Nat) : Bool :=
  (0x09 ≤ cp ∧ cp ≤ 0x0D) ∨ (0x1C ≤ cp ∧ cp ≤ 0x1F) ∨ (0x2000 ≤ cp ∧ cp ≤ 0x200A) ∨
    cp ∈ [0x20, 0x85, 0xA0, 0x1680, 0x2028, 0x2029, 0x202F, 0x205F, 0x3000]

/-! ## decoding -/

/-- The payload of the continuation byte at `pos`, if there is one. -/
def continuation (s : ByteString) (pos : Nat) : Option Nat :=
  if pos ≥ s.length then none
  else if s.getD pos 0 &&& 0xC0 = 0x80 then some (s.getD pos 0 &&& 0x3F).toNat
  else none

/-- `DecodeUtf8At`: the code point and its length. -/
def decodeUtf8At (s : ByteString) (pos : Nat) : Nat × Nat :=
  let c0 := s.getD pos 0
  let invalid := (invalidByteBase + c0.toNat, 1)
  if c0 < 0x80 then (c0.toNat, 1)
  else if 0xC2 ≤ c0 ∧ c0 ≤ 0xDF then
    match continuation s (pos + 1) with
    | some b1 => ((c0 &&& 0x1F).toNat <<< 6 ||| b1, 2)
    | none => invalid
  else if 0xE0 ≤ c0 ∧ c0 ≤ 0xEF then
    match continuation s (pos + 1), continuation s (pos + 2) with
    | some b1, some b2 =>
        let cp := (c0 &&& 0x0F).toNat <<< 12 ||| b1 <<< 6 ||| b2
        if cp < 0x800 ∨ (0xD800 ≤ cp ∧ cp ≤ 0xDFFF) then invalid else (cp, 3)
    | _, _ => invalid
  else if 0xF0 ≤ c0 ∧ c0 ≤ 0xF4 then
    match continuation s (pos + 1), continuation s (pos + 2), continuation s (pos + 3) with
    | some b1, some b2, some b3 =>
        let cp := (c0 &&& 0x07).toNat <<< 18 ||| b1 <<< 12 ||| b2 <<< 6 ||| b3
        if cp < 0x10000 ∨ cp > 0x10FFFF then invalid else (cp, 4)
    | _, _, _ => invalid
  else invalid

/-- Back from `start` over continuation bytes, at most three. -/
def sequenceStart (s : ByteString) (stop : Nat) : Nat → Nat
  | 0 => 0
  | start + 1 =>
      if stop - (start + 1) < 4 ∧ s.getD (start + 1) 0 &&& 0xC0 = 0x80 then
        sequenceStart s stop start
      else start + 1

/-- `DecodeUtf8Before`: the code point and its length. -/
def decodeUtf8Before (s : ByteString) (stop : Nat) : Nat × Nat :=
  let last := s.getD (stop - 1) 0
  if last < 0x80 then (last.toNat, 1)
  else
    let start := sequenceStart s stop (stop - 1)
    let (cp, length) := decodeUtf8At s start
    if start + length = stop ∧ cp < invalidByteBase then (cp, length)
    else (invalidByteBase + last.toNat, 1)

theorem decodeUtf8At_length_pos (s : ByteString) (pos : Nat) : 0 < (decodeUtf8At s pos).2 := by
  unfold decodeUtf8At
  simp only
  repeat' split
  all_goals exact Nat.succ_pos _

theorem decodeUtf8Before_length_pos (s : ByteString) (stop : Nat) :
    0 < (decodeUtf8Before s stop).2 := by
  have hdecode := decodeUtf8At_length_pos s (sequenceStart s stop (stop - 1))
  unfold decodeUtf8Before
  simp only
  split
  · exact Nat.succ_pos _
  · split
    · exact hdecode
    · exact Nat.succ_pos _

/-! ## whitespace -/

/-- Where the whitespace from `pos` on ends. -/
def leadingWhitespaceEnd (s : ByteString) (pos : Nat) : Nat :=
  if pos < s.length then
    if isPythonWhitespace (decodeUtf8At s pos).1 then
      leadingWhitespaceEnd s (pos + (decodeUtf8At s pos).2)
    else pos
  else pos
termination_by s.length - pos
decreasing_by
  have hlength := decodeUtf8At_length_pos s pos
  omega

/-- Where the whitespace before `stop` begins. -/
def trailingWhitespaceStart (s : ByteString) (stop : Nat) : Nat :=
  if 0 < stop then
    if isPythonWhitespace (decodeUtf8Before s stop).1 then
      trailingWhitespaceStart s (stop - (decodeUtf8Before s stop).2)
    else stop
  else stop
termination_by stop
decreasing_by
  have hlength := decodeUtf8Before_length_pos s stop
  omega

/-- `StripLeadingUnicodeWhitespace`. -/
def stripLeadingUnicodeWhitespace (s : ByteString) : ByteString :=
  s.drop (leadingWhitespaceEnd s 0)

/-- `StripTrailingUnicodeWhitespace`. -/
def stripTrailingUnicodeWhitespace (s : ByteString) : ByteString :=
  s.take (trailingWhitespaceStart s s.length)

/-- `StripUnicodeWhitespace`. -/
def stripUnicodeWhitespace (s : ByteString) : ByteString :=
  stripTrailingUnicodeWhitespace (stripLeadingUnicodeWhitespace s)

theorem stripLeadingUnicodeWhitespace_sublist (s : ByteString) :
    (stripLeadingUnicodeWhitespace s).Sublist s :=
  List.drop_sublist _ s

theorem stripTrailingUnicodeWhitespace_sublist (s : ByteString) :
    (stripTrailingUnicodeWhitespace s).Sublist s :=
  List.take_sublist _ s

theorem stripUnicodeWhitespace_sublist (s : ByteString) :
    (stripUnicodeWhitespace s).Sublist s :=
  (stripTrailingUnicodeWhitespace_sublist _).trans (stripLeadingUnicodeWhitespace_sublist s)

/-! ## case folding -/

/-- `FoldCaseForDatabaseMatch` from `pos` on. -/
def foldCaseFrom (tables : UnicodeTables) (s : ByteString) (pos : Nat) : ByteString :=
  if pos < s.length then
    (if (decodeUtf8At s pos).1 ≥ invalidByteBase then [s.getD pos 0]
      else appendUtf8 (simpleUpper tables (decodeUtf8At s pos).1)) ++
        foldCaseFrom tables s (pos + (decodeUtf8At s pos).2)
  else []
termination_by s.length - pos
decreasing_by
  have hlength := decodeUtf8At_length_pos s pos
  omega

/-- `FoldCaseForDatabaseMatch`. -/
def foldCaseForDatabaseMatch (tables : UnicodeTables) (s : ByteString) : ByteString :=
  foldCaseFrom tables s 0

/-- What is not empty does not become so. -/
theorem foldCaseForDatabaseMatch_ne_nil (tables : UnicodeTables) {s : ByteString} (h : s ≠ []) :
    foldCaseForDatabaseMatch tables s ≠ [] := by
  unfold foldCaseForDatabaseMatch
  rw [foldCaseFrom, if_pos (List.length_pos_iff.mpr h)]
  refine List.append_ne_nil_of_left_ne_nil ?_ _
  split
  · exact List.cons_ne_nil _ _
  · exact appendUtf8_ne_nil _

end DispatcharrPvr
