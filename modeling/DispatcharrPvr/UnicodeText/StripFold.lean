import DispatcharrPvr.Lib.Cut
import DispatcharrPvr.UnicodeText.Tables
import Mathlib.Algebra.Group.Nat.Defs
import Mathlib.Data.List.DropRight

/-!
# UnicodeText.StripFold

Stripping and case folding, unit by unit.  Stripping drops the whitespace
pieces at both ends, folding replaces sequences by sequences and keeps stray
bytes; either leaves a splitting, so the units of the result are the units
kept, and the units folded.
-/

namespace DispatcharrPvr

open Resync

/-! ## stripping -/

/-- A whitespace unit. -/
def isWhitespaceUnit (u : Nat × Nat) : Bool := isPythonWhitespace u.1

/-- A whitespace piece. -/
def isWhitespacePiece (p : Piece UInt8 Nat) : Bool := isWhitespaceUnit (unit p)

/-- Pieces without the whitespace at both ends. -/
def stripPieces (pieces : List (Piece UInt8 Nat)) : List (Piece UInt8 Nat) :=
  (pieces.dropWhile isWhitespacePiece).rdropWhile isWhitespacePiece

theorem drop_leadingWhitespaceEnd {pieces : List (Piece UInt8 Nat)} (h : Splits sequences pieces)
    {s : ByteString} {pos : Nat} (hs : items pieces = s.drop pos) :
    s.drop (leadingWhitespaceEnd s pos) = items (pieces.dropWhile isWhitespacePiece) := by
  induction pieces generalizing pos with
  | nil =>
      have hpos : ¬ pos < s.length := by
        rw [items_nil, eq_comm, List.drop_eq_nil_iff] at hs
        omega
      rw [leadingWhitespaceEnd, if_neg hpos, ← hs, List.dropWhile_nil]
  | cons p pieces ih =>
      obtain ⟨hpos, hdecode, hrest⟩ := splits_cons h hs
      rw [leadingWhitespaceEnd, if_pos hpos, hdecode, List.dropWhile_cons]
      by_cases hspace : isWhitespacePiece p = true
      · rw [if_pos hspace, if_pos (show isPythonWhitespace (unit p).1 = true from hspace),
          ih h.2 hrest]
      · rw [if_neg hspace, if_neg (show ¬ isPythonWhitespace (unit p).1 = true from hspace), hs]

theorem take_trailingWhitespaceStart {pieces : List (Piece UInt8 Nat)}
    (h : Splits sequences pieces) {s : ByteString} {stop : Nat} (hstop : stop ≤ s.length)
    (hs : items pieces = s.take stop) :
    s.take (trailingWhitespaceStart s stop) = items (pieces.rdropWhile isWhitespacePiece) := by
  induction pieces using List.reverseRecOn generalizing stop with
  | nil =>
      have hzero : stop = 0 := by
        have hlength := congrArg List.length hs
        rw [List.length_take] at hlength
        simp at hlength
        omega
      rw [trailingWhitespaceStart, hzero, if_neg (Nat.lt_irrefl 0), List.take_zero,
        List.rdropWhile_nil, items_nil]
  | append_singleton pieces p ih =>
      obtain ⟨hpos, hdecode, hrest⟩ := splits_concat h hstop hs
      rw [trailingWhitespaceStart, if_pos hpos, hdecode, List.rdropWhile_concat]
      by_cases hspace : isWhitespacePiece p = true
      · rw [if_pos hspace, if_pos (show isPythonWhitespace (unit p).1 = true from hspace),
          ih h.left (by omega) hrest]
      · rw [if_neg hspace, if_neg (show ¬ isPythonWhitespace (unit p).1 = true from hspace), hs]

/-- Stripping drops pieces at both ends. -/
theorem splits_stripPieces {pieces : List (Piece UInt8 Nat)} (h : Splits sequences pieces) :
    Splits sequences (pieces.dropWhile isWhitespacePiece) ∧
      Splits sequences (stripPieces pieces) := by
  have hleft : Splits sequences (pieces.dropWhile isWhitespacePiece) := by
    rw [← List.takeWhile_append_dropWhile (p := isWhitespacePiece) (l := pieces)] at h
    exact h.right
  refine ⟨hleft, ?_⟩
  rw [← List.rdropWhile_append_rtakeWhile (p := isWhitespacePiece)
    (l := pieces.dropWhile isWhitespacePiece)] at hleft
  exact hleft.left

theorem stripUnicodeWhitespace_eq {pieces : List (Piece UInt8 Nat)}
    (h : Splits sequences pieces) :
    stripUnicodeWhitespace (items pieces) = items (stripPieces pieces) := by
  have hleading : stripLeadingUnicodeWhitespace (items pieces) =
      items (pieces.dropWhile isWhitespacePiece) :=
    drop_leadingWhitespaceEnd h (by rw [List.drop_zero])
  rw [stripUnicodeWhitespace, hleading]
  exact take_trailingWhitespaceStart (splits_stripPieces h).1 (Nat.le_refl _)
    (by rw [List.take_length])

/-- What is stripped has nothing left to strip. -/
theorem stripPieces_stripPieces (pieces : List (Piece UInt8 Nat)) :
    stripPieces (stripPieces pieces) = stripPieces pieces := by
  have hdrop : (stripPieces pieces).dropWhile isWhitespacePiece = stripPieces pieces := by
    obtain ⟨after, hafter⟩ := List.rdropWhile_prefix isWhitespacePiece
      (l := pieces.dropWhile isWhitespacePiece)
    unfold stripPieces
    cases hstrip : (pieces.dropWhile isWhitespacePiece).rdropWhile isWhitespacePiece with
    | nil => rfl
    | cons p rest =>
        rw [hstrip] at hafter
        have hhead : isWhitespacePiece p = false := by
          have hnot := Cut.head?_dropWhile (p := isWhitespacePiece) (s := pieces) p
          rw [← hafter] at hnot
          exact hnot rfl
        rw [List.dropWhile_cons, hhead]
        rfl
  rw [stripPieces, hdrop]
  exact List.rdropWhile_idempotent isWhitespacePiece _

theorem map_unit_stripPieces (pieces : List (Piece UInt8 Nat)) :
    (stripPieces pieces).map unit =
      ((pieces.map unit).dropWhile isWhitespaceUnit).rdropWhile isWhitespaceUnit := by
  unfold stripPieces List.rdropWhile
  rw [List.dropWhile_map, ← List.map_reverse, List.dropWhile_map, List.map_reverse]
  rfl

theorem stripUnicodeWhitespace_idem (s : ByteString) :
    stripUnicodeWhitespace (stripUnicodeWhitespace s) = stripUnicodeWhitespace s := by
  obtain ⟨pieces, hsplits, rfl⟩ := exists_splits s
  rw [stripUnicodeWhitespace_eq hsplits, stripUnicodeWhitespace_eq (splits_stripPieces hsplits).2,
    stripPieces_stripPieces]

theorem unitsFrom_items {pieces : List (Piece UInt8 Nat)} (h : Splits sequences pieces) :
    unitsFrom (items pieces) 0 = pieces.map unit :=
  unitsFrom_eq h (by rw [List.drop_zero])

/-- Stripping removes the whitespace units at both ends and no others. -/
theorem unitsFrom_stripUnicodeWhitespace (s : ByteString) :
    unitsFrom (stripUnicodeWhitespace s) 0 =
      ((unitsFrom s 0).dropWhile isWhitespaceUnit).rdropWhile isWhitespaceUnit := by
  obtain ⟨pieces, hsplits, rfl⟩ := exists_splits s
  rw [stripUnicodeWhitespace_eq hsplits, unitsFrom_items (splits_stripPieces hsplits).2,
    unitsFrom_items hsplits, map_unit_stripPieces]

/-! ## folding -/

section Folding

variable (tables : UnicodeTables)

/-- What folding makes of a unit. -/
def foldUnit (u : Nat × Nat) : Nat × Nat :=
  if u.1 ≥ invalidByteBase then u
  else (simpleUpper tables u.1, (appendUtf8 (simpleUpper tables u.1)).length)

/-- What folding makes of a piece. -/
def foldPiece : Piece UInt8 Nat → Piece UInt8 Nat
  | .sequence _ cp => .sequence (appendUtf8 (simpleUpper tables cp)) (simpleUpper tables cp)
  | .stray b => .stray b

theorem foldCaseFrom_eq {pieces : List (Piece UInt8 Nat)} (h : Splits sequences pieces)
    {s : ByteString} {pos : Nat} (hs : items pieces = s.drop pos) :
    foldCaseFrom tables s pos = items (pieces.map (foldPiece tables)) := by
  induction pieces generalizing pos with
  | nil =>
      have hpos : ¬ pos < s.length := by
        rw [items_nil, eq_comm, List.drop_eq_nil_iff] at hs
        omega
      rw [foldCaseFrom, if_neg hpos, List.map_nil, items_nil]
  | cons p pieces ih =>
      obtain ⟨hpos, hdecode, hrest⟩ := splits_cons h hs
      rw [foldCaseFrom, if_pos hpos, hdecode, ih h.2 hrest, List.map_cons, items_cons]
      congr 1
      cases p with
      | sequence w cp =>
          have hscalar := (sequenceValue_eq_some_iff.mp h.1.1).scalar
          exact if_neg (Nat.not_le.mpr hscalar.lt)
      | stray b =>
          have hb : s.getD pos 0 = b := by
            rw [List.getD_eq_getElem?_getD, ← List.head?_drop, ← hs]
            rfl
          rw [hb]
          exact if_pos (Nat.le_add_right _ _)

end Folding

/-! ## encoding a scalar value -/

/-- A continuation byte carries six bits. -/
theorem continuation_byte {w : ByteString} {pos m : Nat} (hpos : pos < w.length) (hm : m < 64)
    (hb : w.getD pos 0 = (0x80 ||| m).toUInt8) : continuation w pos = some m := by
  have hall : ∀ m : Fin 64, Utf8.continues (0x80 ||| m.val).toUInt8 = true ∧
      ((0x80 ||| m.val).toUInt8 &&& 0x3F).toNat = m.val := by decide
  obtain ⟨hcont, hbits⟩ := hall ⟨m, hm⟩
  exact continuation_eq_some_iff.mpr ⟨hpos, hb ▸ hcont, by rw [hb]; exact hbits.symm⟩

/-- The low bits and the rest make up a number. -/
theorem shiftLeft_or_and (a i : Nat) : (a >>> i) <<< i ||| (a &&& 2 ^ i - 1) = a := by
  have hlow : a % 2 ^ i < 2 ^ i := Nat.mod_lt _ (Nat.two_pow_pos i)
  rw [Nat.and_two_pow_sub_one_eq_mod, ← Nat.shiftLeft_add_eq_or_of_lt hlow, Nat.shiftLeft_eq,
    Nat.shiftRight_eq_div_pow]
  exact Nat.div_add_mod' a (2 ^ i)

theorem and_lt (a i : Nat) : a &&& 2 ^ i - 1 < 2 ^ i := by
  rw [Nat.and_two_pow_sub_one_eq_mod]
  exact Nat.mod_lt _ (Nat.two_pow_pos i)

/-- Six bits more. -/
theorem shiftLeft_or_shiftRight (a i : Nat) :
    (a >>> (i + 6)) <<< (i + 6) ||| (a >>> i &&& 0x3F) <<< i = (a >>> i) <<< i := by
  have hlow := shiftLeft_or_and (a >>> i) 6
  rw [← Nat.shiftRight_add] at hlow
  rw [Nat.add_comm i 6, Nat.shiftLeft_add, ← Nat.shiftLeft_or_distrib, Nat.add_comm 6 i]
  exact congrArg (· <<< i) hlow

/-- What is encoded decodes to itself. -/
theorem decodesAt_appendUtf8 {cp : Nat} (h : IsScalar cp) :
    DecodesAt (appendUtf8 cp) 0 cp (appendUtf8 cp).length := by
  have hlow : (cp >>> 6) <<< 6 ||| (cp &&& 0x3F) = cp := shiftLeft_or_and cp 6
  have hmid : (cp >>> 12) <<< 12 ||| (cp >>> 6 &&& 0x3F) <<< 6 = (cp >>> 6) <<< 6 :=
    shiftLeft_or_shiftRight cp 6
  have hhigh : (cp >>> 18) <<< 18 ||| (cp >>> 12 &&& 0x3F) <<< 12 = (cp >>> 12) <<< 12 :=
    shiftLeft_or_shiftRight cp 12
  have hbits : ∀ i, cp >>> i &&& 0x3F < 64 := fun i => and_lt (cp >>> i) 6
  have hbits0 : cp &&& 0x3F < 64 := and_lt cp 6
  by_cases hone : cp < 0x80
  · have hall : ∀ cp : Fin 128, cp.val.toUInt8 < 0x80 ∧ cp.val.toUInt8.toNat = cp.val := by decide
    obtain ⟨hascii, hvalue⟩ := hall ⟨cp, hone⟩
    have hat : DecodesAt [cp.toUInt8] 0 cp.toUInt8.toNat 1 := decodesAt_one Nat.one_pos hascii
    rw [hvalue] at hat
    rwa [appendUtf8, if_pos hone]
  · by_cases htwo : cp < 0x800
    · have hall : ∀ k : Fin 32, 2 ≤ k.val → ¬ (0xC0 ||| k.val).toUInt8 < 0x80 ∧
          (0xC2 ≤ (0xC0 ||| k.val).toUInt8 ∧ (0xC0 ||| k.val).toUInt8 ≤ 0xDF) ∧
          ((0xC0 ||| k.val).toUInt8 &&& 0x1F).toNat = k.val := by decide
      have hk : cp >>> 6 < 32 := by
        rw [Nat.shiftRight_eq_div_pow]
        omega
      have hk' : 2 ≤ cp >>> 6 := by
        rw [Nat.shiftRight_eq_div_pow]
        omega
      obtain ⟨hascii, hlead, hvalue⟩ := hall ⟨cp >>> 6, hk⟩ hk'
      rw [appendUtf8, if_neg hone, if_pos htwo]
      have hat := @decodesAt_two
        [(0xC0 ||| cp >>> 6).toUInt8, (0x80 ||| cp &&& 0x3F).toUInt8] 0 _ hascii hlead
        (continuation_byte (by simp) hbits0 rfl)
      rwa [List.getD_cons_zero, hvalue, hlow] at hat
    · by_cases hthree : cp < 0x10000
      · have hall : ∀ k : Fin 16, ¬ (0xE0 ||| k.val).toUInt8 < 0x80 ∧
            ¬ (0xC2 ≤ (0xE0 ||| k.val).toUInt8 ∧ (0xE0 ||| k.val).toUInt8 ≤ 0xDF) ∧
            (0xE0 ≤ (0xE0 ||| k.val).toUInt8 ∧ (0xE0 ||| k.val).toUInt8 ≤ 0xEF) ∧
            ((0xE0 ||| k.val).toUInt8 &&& 0x0F).toNat = k.val := by decide
        have hk : cp >>> 12 < 16 := by
          rw [Nat.shiftRight_eq_div_pow]
          omega
        obtain ⟨hascii, hnotTwo, hlead, hvalue⟩ := hall ⟨cp >>> 12, hk⟩
        have hcp : (([(0xE0 ||| cp >>> 12).toUInt8, (0x80 ||| cp >>> 6 &&& 0x3F).toUInt8,
              (0x80 ||| cp &&& 0x3F).toUInt8].getD 0 0 &&& 0x0F).toNat <<< 12 |||
            (cp >>> 6 &&& 0x3F) <<< 6 ||| (cp &&& 0x3F)) = cp := by
          rw [List.getD_cons_zero, hvalue, hmid, hlow]
        rw [appendUtf8, if_neg hone, if_neg htwo, if_pos hthree]
        have hat := @decodesAt_three
          [(0xE0 ||| cp >>> 12).toUInt8, (0x80 ||| cp >>> 6 &&& 0x3F).toUInt8,
            (0x80 ||| cp &&& 0x3F).toUInt8] 0 _ _ hascii hnotTwo hlead
          (continuation_byte (by simp) (hbits 6) rfl) (continuation_byte (by simp) hbits0 rfl)
          (by
            rw [hcp]
            unfold IsScalar at h
            omega)
        rwa [hcp] at hat
      · have hall : ∀ k : Fin 5, ¬ (0xF0 ||| k.val).toUInt8 < 0x80 ∧
            ¬ (0xC2 ≤ (0xF0 ||| k.val).toUInt8 ∧ (0xF0 ||| k.val).toUInt8 ≤ 0xDF) ∧
            ¬ (0xE0 ≤ (0xF0 ||| k.val).toUInt8 ∧ (0xF0 ||| k.val).toUInt8 ≤ 0xEF) ∧
            (0xF0 ≤ (0xF0 ||| k.val).toUInt8 ∧ (0xF0 ||| k.val).toUInt8 ≤ 0xF4) ∧
            ((0xF0 ||| k.val).toUInt8 &&& 0x07).toNat = k.val := by decide
        have hk : cp >>> 18 < 5 := by
          unfold IsScalar at h
          rw [Nat.shiftRight_eq_div_pow]
          omega
        obtain ⟨hascii, hnotTwo, hnotThree, hlead, hvalue⟩ := hall ⟨cp >>> 18, hk⟩
        have hcp : (([(0xF0 ||| cp >>> 18).toUInt8, (0x80 ||| cp >>> 12 &&& 0x3F).toUInt8,
              (0x80 ||| cp >>> 6 &&& 0x3F).toUInt8, (0x80 ||| cp &&& 0x3F).toUInt8].getD 0 0 &&&
                0x07).toNat <<< 18 |||
            (cp >>> 12 &&& 0x3F) <<< 12 ||| (cp >>> 6 &&& 0x3F) <<< 6 ||| (cp &&& 0x3F)) = cp := by
          rw [List.getD_cons_zero, hvalue, hhigh, hmid, hlow]
        rw [appendUtf8, if_neg hone, if_neg htwo, if_neg hthree]
        have hat := @decodesAt_four
          [(0xF0 ||| cp >>> 18).toUInt8, (0x80 ||| cp >>> 12 &&& 0x3F).toUInt8,
            (0x80 ||| cp >>> 6 &&& 0x3F).toUInt8, (0x80 ||| cp &&& 0x3F).toUInt8] 0 _ _ _
          hascii hnotTwo hnotThree hlead (continuation_byte (by simp) (hbits 12) rfl)
          (continuation_byte (by simp) (hbits 6) rfl) (continuation_byte (by simp) hbits0 rfl)
          (by
            rw [hcp]
            unfold IsScalar at h
            omega)
        rwa [hcp] at hat

theorem sequenceValue_appendUtf8 {cp : Nat} (h : IsScalar cp) :
    sequenceValue (appendUtf8 cp) = some cp :=
  sequenceValue_eq_some_iff.mpr (decodesAt_appendUtf8 h)

/-! ## the units of what is folded -/

/-- Folding replaces the pieces. -/
theorem splits_foldPiece {tables : UnicodeTables}
    (htables : ∀ range ∈ tables.upperRanges, range.MapsToScalars)
    {pieces : List (Piece UInt8 Nat)} (h : Splits sequences pieces) :
    Splits sequences (pieces.map (foldPiece tables)) := by
  refine h.map ?_
  intro p hp
  cases p with
  | sequence w cp =>
      have hvalue := h.value_of_mem hp
      have hscalar := (sequenceValue_eq_some_iff.mp hvalue).scalar
      exact .inr ⟨_, _, rfl, sequenceValue_appendUtf8 (isScalar_simpleUpper htables hscalar)⟩
  | stray b => exact .inl rfl

theorem foldCaseForDatabaseMatch_items (tables : UnicodeTables) {pieces : List (Piece UInt8 Nat)}
    (h : Splits sequences pieces) :
    foldCaseForDatabaseMatch tables (items pieces) = items (pieces.map (foldPiece tables)) :=
  foldCaseFrom_eq tables h (by rw [List.drop_zero])

/-- Folding folds each unit, and an invalid byte stays one and stays where it is. -/
theorem unitsFrom_foldCaseForDatabaseMatch {tables : UnicodeTables}
    (htables : ∀ range ∈ tables.upperRanges, range.MapsToScalars) (s : ByteString) :
    unitsFrom (foldCaseForDatabaseMatch tables s) 0 = (unitsFrom s 0).map (foldUnit tables) := by
  obtain ⟨pieces, hsplits, rfl⟩ := exists_splits s
  rw [foldCaseForDatabaseMatch_items tables hsplits,
    unitsFrom_items (splits_foldPiece htables hsplits), unitsFrom_items hsplits, List.map_map,
    List.map_map]
  refine List.map_congr_left ?_
  intro p hp
  cases p with
  | sequence w cp =>
      have hscalar := (sequenceValue_eq_some_iff.mp (hsplits.value_of_mem hp)).scalar
      exact (if_neg (Nat.not_le.mpr hscalar.lt)).symm
  | stray b => exact (if_pos (Nat.le_add_right _ _)).symm

/-- The bytes folding makes of a unit: an invalid one is its byte. -/
def foldedBytes (tables : UnicodeTables) (u : Nat × Nat) : ByteString :=
  if u.1 ≥ invalidByteBase then [(u.1 - invalidByteBase).toUInt8]
  else appendUtf8 (simpleUpper tables u.1)

/-- Whatever the tables, folding goes unit by unit. -/
theorem foldCaseForDatabaseMatch_eq (tables : UnicodeTables) (s : ByteString) :
    foldCaseForDatabaseMatch tables s = (unitsFrom s 0).flatMap (foldedBytes tables) := by
  obtain ⟨pieces, hsplits, rfl⟩ := exists_splits s
  rw [foldCaseForDatabaseMatch_items tables hsplits, unitsFrom_items hsplits]
  unfold items
  rw [List.flatMap_map, List.flatMap_map]
  refine List.flatMap_congr ?_
  intro p hp
  cases p with
  | sequence w cp =>
      have hscalar := (sequenceValue_eq_some_iff.mp (hsplits.value_of_mem hp)).scalar
      exact (if_neg (Nat.not_le.mpr hscalar.lt)).symm
  | stray b =>
      have hbyte : (invalidByteBase + b.toNat - invalidByteBase).toUInt8 = b := by
        rw [Nat.add_sub_cancel_left]
        exact UInt8.ofNat_toNat
      show [b] = foldedBytes tables (invalidByteBase + b.toNat, 1)
      rw [foldedBytes, if_pos (Nat.le_add_right _ _), hbyte]

/-! ## what is stripped off -/

/-- The pieces stripping keeps, between those it strips off. -/
theorem exists_stripPieces (pieces : List (Piece UInt8 Nat)) :
    ∃ before after, pieces = before ++ stripPieces pieces ++ after ∧
      (∀ p ∈ before, isWhitespacePiece p = true) ∧ ∀ p ∈ after, isWhitespacePiece p = true := by
  refine ⟨pieces.takeWhile isWhitespacePiece,
    (pieces.dropWhile isWhitespacePiece).rtakeWhile isWhitespacePiece, ?_,
    fun p hp => List.mem_takeWhile_imp hp, fun p hp => List.mem_rtakeWhile_imp hp⟩
  rw [stripPieces, List.append_assoc, List.rdropWhile_append_rtakeWhile,
    List.takeWhile_append_dropWhile]

/-- What is stripped off is whitespace, and a unit before it is one after it. -/
theorem exists_stripped (s : ByteString) :
    ∃ before after, s = before ++ stripUnicodeWhitespace s ++ after ∧
      unitsFrom s 0 = unitsFrom before 0 ++ unitsFrom (stripUnicodeWhitespace s) 0 ++
        unitsFrom after 0 ∧
      (∀ u ∈ unitsFrom before 0, isWhitespaceUnit u = true) ∧
      ∀ u ∈ unitsFrom after 0, isWhitespaceUnit u = true := by
  obtain ⟨pieces, hsplits, rfl⟩ := exists_splits s
  obtain ⟨before, after, heq, hbefore, hafter⟩ := exists_stripPieces pieces
  have hcut : Splits sequences (before ++ stripPieces pieces ++ after) := heq ▸ hsplits
  have hunits : ∀ {part : List (Piece UInt8 Nat)}, Splits sequences part →
      (∀ p ∈ part, isWhitespacePiece p = true) →
      ∀ u ∈ unitsFrom (items part) 0, isWhitespaceUnit u = true := by
    intro part hpart hall u hu
    rw [unitsFrom_items hpart, List.mem_map] at hu
    obtain ⟨p, hp, rfl⟩ := hu
    exact hall p hp
  refine ⟨items before, items after, ?_, ?_, hunits hcut.left.left hbefore,
    hunits hcut.right hafter⟩
  · rw [stripUnicodeWhitespace_eq hsplits, ← items_append, ← items_append, ← heq]
  · rw [stripUnicodeWhitespace_eq hsplits, unitsFrom_items hsplits,
      unitsFrom_items (splits_stripPieces hsplits).2, unitsFrom_items hcut.left.left,
      unitsFrom_items hcut.right, ← List.map_append, ← List.map_append, ← heq]

/-! ## main result -/

/-- Forward and backward steps agree on any bytes, stripping takes the
whitespace units off both ends and is done after one time, and folding keeps
the invalid bytes. -/
theorem utf8_units_agree (s : ByteString) :
    unitsFrom s 0 = unitsBefore s s.length ∧
    stripUnicodeWhitespace (stripUnicodeWhitespace s) = stripUnicodeWhitespace s ∧
    unitsFrom (stripUnicodeWhitespace s) 0 =
      ((unitsFrom s 0).dropWhile isWhitespaceUnit).rdropWhile isWhitespaceUnit ∧
    (∃ before after, s = before ++ stripUnicodeWhitespace s ++ after ∧
      unitsFrom s 0 = unitsFrom before 0 ++ unitsFrom (stripUnicodeWhitespace s) 0 ++
        unitsFrom after 0 ∧
      (∀ u ∈ unitsFrom before 0, isWhitespaceUnit u = true) ∧
      ∀ u ∈ unitsFrom after 0, isWhitespaceUnit u = true) ∧
    ∀ tables : UnicodeTables,
      foldCaseForDatabaseMatch tables s = (unitsFrom s 0).flatMap (foldedBytes tables) ∧
      ((∀ range ∈ tables.upperRanges, range.MapsToScalars) →
        unitsFrom (foldCaseForDatabaseMatch tables s) 0 =
          (unitsFrom s 0).map (foldUnit tables)) :=
  ⟨unitsFrom_eq_unitsBefore s, stripUnicodeWhitespace_idem s, unitsFrom_stripUnicodeWhitespace s,
    exists_stripped s, fun tables => ⟨foldCaseForDatabaseMatch_eq tables s,
      fun htables => unitsFrom_foldCaseForDatabaseMatch htables s⟩⟩

/-- The tables of `UnicodeTables.inc`, without the word characters. -/
def caseTables : UnicodeTables := ⟨upperRanges, [], upperRanges_sorted, .nil⟩

theorem utf8_units_agree_truncated :
    unitsFrom (foldCaseForDatabaseMatch caseTables [0x61, 0xC3]) 0 =
      (unitsFrom [0x61, 0xC3] 0).map (foldUnit caseTables) :=
  ((utf8_units_agree [0x61, 0xC3]).2.2.2.2 caseTables).2 upperRanges_mapsToScalars

end DispatcharrPvr
