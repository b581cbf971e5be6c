import DispatcharrPvr.Lib.Resync
import DispatcharrPvr.Lib.Utf8
import DispatcharrPvr.UnicodeText
import Mathlib.Algebra.Group.Nat.Defs
import Mathlib.Data.List.GetD
import Mathlib.Data.List.Induction

/-!
# UnicodeText.Units

The units a byte string falls into.  The decoder's valid sequences are a
self-synchronising code (`sequences`): what is at a position decodes the same
wherever its bytes stand (`DecodesAt.same`), so the forward step takes the piece
at the front and the backward step the piece at the back.
-/

namespace DispatcharrPvr

open Resync

/-- A code point that is no surrogate. -/
def IsScalar (cp : Nat) : Prop := cp < 0xD800 ∨ (0xDFFF < cp ∧ cp ≤ 0x10FFFF)

instance (cp : Nat) : Decidable (IsScalar cp) := inferInstanceAs (Decidable (_ ∨ _))

theorem IsScalar.lt {cp : Nat} (h : IsScalar cp) : cp < invalidByteBase := by
  unfold IsScalar at h
  unfold invalidByteBase
  omega

/-! ## one step -/

theorem continuation_eq_some_iff {s : ByteString} {pos b : Nat} :
    continuation s pos = some b ↔
      pos < s.length ∧ Utf8.continues (s.getD pos 0) = true ∧
        b = (s.getD pos 0 &&& 0x3F).toNat := by
  unfold continuation Utf8.continues
  by_cases hpos : pos ≥ s.length
  · rw [if_pos hpos]
    simp
    omega
  · rw [if_neg hpos]
    by_cases hcont : s.getD pos 0 &&& 0xC0 = 0x80
    · rw [if_pos hcont, Option.some.injEq]
      simp only [hcont, beq_self_eq_true, true_and]
      exact ⟨fun h => ⟨by omega, h.symm⟩, fun h => h.2.symm⟩
    · rw [if_neg hcont]
      simp only [reduceCtorEq, false_iff, not_and, beq_iff_eq]
      intro _ h
      exact absurd h hcont

theorem continuation_congr {s t : ByteString} {pos pos' : Nat} (hpos : pos < s.length)
    (hpos' : pos' < t.length) (h : t.getD pos' 0 = s.getD pos 0) :
    continuation t pos' = continuation s pos := by
  rw [continuation, continuation, if_neg (Nat.not_le.mpr hpos), if_neg (Nat.not_le.mpr hpos'), h]

theorem continuation_lt {s : ByteString} {pos b : Nat} (h : continuation s pos = some b) :
    b < 2 ^ 6 := by
  obtain ⟨-, -, rfl⟩ := continuation_eq_some_iff.mp h
  rw [UInt8.toNat_and]
  exact Nat.and_lt_two_pow _ (by decide)

/-- A valid sequence at `pos`, of value `cp` and length `n`. -/
structure DecodesAt (s : ByteString) (pos cp n : Nat) : Prop where
  bound : pos + n ≤ s.length
  length_pos : 0 < n
  length_le : n ≤ 4
  lead : Utf8.continues (s.getD pos 0) = false
  rest : ∀ k, 0 < k → k < n → Utf8.continues (s.getD (pos + k) 0) = true
  scalar : IsScalar cp
  /-- The same bytes decode the same. -/
  same : ∀ (t : ByteString) (pos' : Nat), pos' + n ≤ t.length →
    (∀ k, k < n → t.getD (pos' + k) 0 = s.getD (pos + k) 0) → decodeUtf8At t pos' = (cp, n)

theorem lead_of_ge {c : UInt8} (h : 0xC2 ≤ c) : Utf8.continues c = false := by
  have hall : ∀ b : BitVec 8, 0xC2 ≤ UInt8.ofBitVec b →
      Utf8.continues (UInt8.ofBitVec b) = false := by decide
  exact hall c.toBitVec h

theorem lead_of_lt {c : UInt8} (h : c < 0x80) : Utf8.continues c = false := by
  have hall : ∀ b : BitVec 8, UInt8.ofBitVec b < 0x80 →
      Utf8.continues (UInt8.ofBitVec b) = false := by decide
  exact hall c.toBitVec h

theorem and_toNat_lt {c mask : UInt8} {n : Nat} (h : mask.toNat < 2 ^ n) :
    (c &&& mask).toNat < 2 ^ n := by
  rw [UInt8.toNat_and]
  exact Nat.and_lt_two_pow _ h

theorem shiftLeft_or_lt {a b i j : Nat} (ha : a < 2 ^ j) (hb : b < 2 ^ i) :
    a <<< i ||| b < 2 ^ (j + i) := by
  refine Nat.or_lt_two_pow ?_ (Nat.lt_of_lt_of_le hb (Nat.pow_le_pow_right (by decide) (by omega)))
  rw [Nat.shiftLeft_eq, Nat.pow_add]
  exact Nat.mul_lt_mul_of_pos_right ha (Nat.two_pow_pos i)

/-- What the continuation bytes of a sequence say about its bytes. -/
theorem rest_of_continuations {s : ByteString} {pos n : Nat}
    (h : ∀ k, 0 < k → k < n → (continuation s (pos + k)).isSome = true) :
    (∀ k, 0 < k → k < n → pos + k < s.length) ∧
      ∀ k, 0 < k → k < n → Utf8.continues (s.getD (pos + k) 0) = true := by
  have hspec : ∀ k, 0 < k → k < n →
      pos + k < s.length ∧ Utf8.continues (s.getD (pos + k) 0) = true := by
    intro k hk hk'
    obtain ⟨b, hb⟩ := Option.isSome_iff_exists.mp (h k hk hk')
    obtain ⟨hlt, hcont, -⟩ := continuation_eq_some_iff.mp hb
    exact ⟨hlt, hcont⟩
  exact ⟨fun k hk hk' => (hspec k hk hk').1, fun k hk hk' => (hspec k hk hk').2⟩

/-- The bytes of a sequence continue the same wherever they stand. -/
theorem continuation_same {s t : ByteString} {pos pos' n : Nat} (hn : pos + n ≤ s.length)
    (hn' : pos' + n ≤ t.length) (hbytes : ∀ k, k < n → t.getD (pos' + k) 0 = s.getD (pos + k) 0)
    {k : Nat} (hk : k < n) : continuation t (pos' + k) = continuation s (pos + k) :=
  continuation_congr (by omega) (by omega) (hbytes k hk)

section Steps

variable {s : ByteString} {pos : Nat}

theorem decodesAt_one (hpos : pos < s.length) (hascii : s.getD pos 0 < 0x80) :
    DecodesAt s pos (s.getD pos 0).toNat 1 := by
  refine ⟨hpos, by decide, by decide, lead_of_lt hascii, by omega, ?_, ?_⟩
  · have hlt := UInt8.toNat_lt (s.getD pos 0)
    unfold IsScalar
    omega
  · intro t pos' hn' hbytes
    have h0 : t.getD pos' 0 = s.getD pos 0 := hbytes 0 (by decide)
    rw [decodeUtf8At, h0, if_pos hascii]

theorem decodesAt_two {b1 : Nat} (hascii : ¬ s.getD pos 0 < 0x80)
    (htwo : 0xC2 ≤ s.getD pos 0 ∧ s.getD pos 0 ≤ 0xDF) (h1 : continuation s (pos + 1) = some b1) :
    DecodesAt s pos ((s.getD pos 0 &&& 0x1F).toNat <<< 6 ||| b1) 2 := by
  have hsome : ∀ k, 0 < k → k < 2 → (continuation s (pos + k)).isSome = true := by
    intro k hk hk'
    obtain rfl : k = 1 := by omega
    rw [h1]
    rfl
  obtain ⟨hlt, hrest⟩ := rest_of_continuations hsome
  have hbound : pos + 2 ≤ s.length := hlt 1 (by decide) (by decide)
  refine ⟨hbound, by decide, by decide, lead_of_ge htwo.1, hrest, ?_, ?_⟩
  · have hvalue : (s.getD pos 0 &&& 0x1F).toNat <<< 6 ||| b1 < 2 ^ (5 + 6) :=
      shiftLeft_or_lt (and_toNat_lt (by decide)) (continuation_lt h1)
    exact .inl (Nat.lt_trans hvalue (by decide))
  · intro t pos' hn' hbytes
    have h0 : t.getD pos' 0 = s.getD pos 0 := hbytes 0 (by decide)
    have h1' := continuation_same hbound hn' hbytes (k := 1) (by decide)
    simp only [decodeUtf8At, h0, if_neg hascii, if_pos htwo, h1', h1]

theorem decodesAt_three {b1 b2 : Nat} (hascii : ¬ s.getD pos 0 < 0x80)
    (htwo : ¬ (0xC2 ≤ s.getD pos 0 ∧ s.getD pos 0 ≤ 0xDF))
    (hthree : 0xE0 ≤ s.getD pos 0 ∧ s.getD pos 0 ≤ 0xEF)
    (h1 : continuation s (pos + 1) = some b1) (h2 : continuation s (pos + 2) = some b2)
    (hvalid : ¬ ((s.getD pos 0 &&& 0x0F).toNat <<< 12 ||| b1 <<< 6 ||| b2 < 0x800 ∨
      (0xD800 ≤ (s.getD pos 0 &&& 0x0F).toNat <<< 12 ||| b1 <<< 6 ||| b2 ∧
        (s.getD pos 0 &&& 0x0F).toNat <<< 12 ||| b1 <<< 6 ||| b2 ≤ 0xDFFF))) :
    DecodesAt s pos ((s.getD pos 0 &&& 0x0F).toNat <<< 12 ||| b1 <<< 6 ||| b2) 3 := by
  have hsome : ∀ k, 0 < k → k < 3 → (continuation s (pos + k)).isSome = true := by
    intro k hk hk'
    obtain rfl | rfl : k = 1 ∨ k = 2 := by omega
    · rw [h1]
      rfl
    · rw [h2]
      rfl
  obtain ⟨hlt, hrest⟩ := rest_of_continuations hsome
  have hbound : pos + 3 ≤ s.length := hlt 2 (by decide) (by decide)
  have hlead : 0xC2 ≤ s.getD pos 0 := UInt8.le_trans (by decide) hthree.1
  refine ⟨hbound, by decide, by decide, lead_of_ge hlead, hrest, ?_, ?_⟩
  · have hhigh : (s.getD pos 0 &&& 0x0F).toNat < 2 ^ 4 := and_toNat_lt (by decide)
    have hlow := shiftLeft_or_lt (continuation_lt h1) (continuation_lt h2)
    have hvalue : (s.getD pos 0 &&& 0x0F).toNat <<< 12 ||| (b1 <<< 6 ||| b2) < 2 ^ (4 + 12) :=
      shiftLeft_or_lt hhigh hlow
    rw [← Nat.or_assoc] at hvalue
    unfold IsScalar
    omega
  · intro t pos' hn' hbytes
    have h0 : t.getD pos' 0 = s.getD pos 0 := hbytes 0 (by decide)
    have h1' := continuation_same hbound hn' hbytes (k := 1) (by decide)
    have h2' := continuation_same hbound hn' hbytes (k := 2) (by decide)
    simp only [decodeUtf8At, h0, if_neg hascii, if_neg htwo, if_pos hthree, h1', h1, h2', h2,
      if_neg hvalid]

theorem decodesAt_four {b1 b2 b3 : Nat} (hascii : ¬ s.getD pos 0 < 0x80)
    (htwo : ¬ (0xC2 ≤ s.getD pos 0 ∧ s.getD pos 0 ≤ 0xDF))
    (hthree : ¬ (0xE0 ≤ s.getD pos 0 ∧ s.getD pos 0 ≤ 0xEF))
    (hfour : 0xF0 ≤ s.getD pos 0 ∧ s.getD pos 0 ≤ 0xF4)
    (h1 : continuation s (pos + 1) = some b1) (h2 : continuation s (pos + 2) = some b2)
    (h3 : continuation s (pos + 3) = some b3)
    (hvalid : ¬ ((s.getD pos 0 &&& 0x07).toNat <<< 18 ||| b1 <<< 12 ||| b2 <<< 6 ||| b3 < 0x10000 ∨
      (s.getD pos 0 &&& 0x07).toNat <<< 18 ||| b1 <<< 12 ||| b2 <<< 6 ||| b3 > 0x10FFFF)) :
    DecodesAt s pos ((s.getD pos 0 &&& 0x07).toNat <<< 18 ||| b1 <<< 12 ||| b2 <<< 6 ||| b3) 4 := by
  have hsome : ∀ k, 0 < k → k < 4 → (continuation s (pos + k)).isSome = true := by
    intro k hk hk'
    obtain rfl | rfl | rfl : k = 1 ∨ k = 2 ∨ k = 3 := by omega
    · rw [h1]
      rfl
    · rw [h2]
      rfl
    · rw [h3]
      rfl
  obtain ⟨hlt, hrest⟩ := rest_of_continuations hsome
  have hbound : pos + 4 ≤ s.length := hlt 3 (by decide) (by decide)
  have hlead : 0xC2 ≤ s.getD pos 0 := UInt8.le_trans (by decide) hfour.1
  refine ⟨hbound, by decide, by decide, lead_of_ge hlead, hrest, ?_, ?_⟩
  · unfold IsScalar
    omega
  · intro t pos' hn' hbytes
    have h0 : t.getD pos' 0 = s.getD pos 0 := hbytes 0 (by decide)
    have h1' := continuation_same hbound hn' hbytes (k := 1) (by decide)
    have h2' := continuation_same hbound hn' hbytes (k := 2) (by decide)
    have h3' := continuation_same hbound hn' hbytes (k := 3) (by decide)
    simp only [decodeUtf8At, h0, if_neg hascii, if_neg htwo, if_neg hthree, if_pos hfour, h1', h1,
      h2', h2, h3', h3, if_neg hvalid]

/-- The decoder takes a sequence, or a byte that it finds part of none. -/
theorem decodeUtf8At_cases (hpos : pos < s.length) :
    DecodesAt s pos (decodeUtf8At s pos).1 (decodeUtf8At s pos).2 ∨
      (0x80 ≤ s.getD pos 0 ∧
        decodeUtf8At s pos = (invalidByteBase + (s.getD pos 0).toNat, 1)) := by
  by_cases hascii : s.getD pos 0 < 0x80
  · have hstep := decodesAt_one hpos hascii
    rw [hstep.same s pos hstep.bound fun _ _ => rfl]
    exact .inl hstep
  · have hhigh : 0x80 ≤ s.getD pos 0 := UInt8.not_lt.mp hascii
    have hstray : decodeUtf8At s pos = (invalidByteBase + (s.getD pos 0).toNat, 1) →
        DecodesAt s pos (decodeUtf8At s pos).1 (decodeUtf8At s pos).2 ∨
          (0x80 ≤ s.getD pos 0 ∧
            decodeUtf8At s pos = (invalidByteBase + (s.getD pos 0).toNat, 1)) :=
      fun h => .inr ⟨hhigh, h⟩
    by_cases htwo : 0xC2 ≤ s.getD pos 0 ∧ s.getD pos 0 ≤ 0xDF
    · cases h1 : continuation s (pos + 1) with
      | none => exact hstray (by simp only [decodeUtf8At, if_neg hascii, if_pos htwo, h1])
      | some b1 =>
          have hstep := decodesAt_two hascii htwo h1
          rw [hstep.same s pos hstep.bound fun _ _ => rfl]
          exact .inl hstep
    · by_cases hthree : 0xE0 ≤ s.getD pos 0 ∧ s.getD pos 0 ≤ 0xEF
      · cases h1 : continuation s (pos + 1) with
        | none =>
            refine hstray ?_
            simp only [decodeUtf8At, if_neg hascii, if_neg htwo, if_pos hthree, h1]
        | some b1 =>
            cases h2 : continuation s (pos + 2) with
            | none =>
                refine hstray ?_
                simp only [decodeUtf8At, if_neg hascii, if_neg htwo, if_pos hthree, h1, h2]
            | some b2 =>
                by_cases hvalid : (s.getD pos 0 &&& 0x0F).toNat <<< 12 ||| b1 <<< 6 ||| b2 < 0x800 ∨
                    (0xD800 ≤ (s.getD pos 0 &&& 0x0F).toNat <<< 12 ||| b1 <<< 6 ||| b2 ∧
                      (s.getD pos 0 &&& 0x0F).toNat <<< 12 ||| b1 <<< 6 ||| b2 ≤ 0xDFFF)
                · refine hstray ?_
                  simp only [decodeUtf8At, if_neg hascii, if_neg htwo, if_pos hthree, h1, h2,
                    if_pos hvalid]
                · have hstep := decodesAt_three hascii htwo hthree h1 h2 hvalid
                  rw [hstep.same s pos hstep.bound fun _ _ => rfl]
                  exact .inl hstep
      · by_cases hfour : 0xF0 ≤ s.getD pos 0 ∧ s.getD pos 0 ≤ 0xF4
        · cases h1 : continuation s (pos + 1) with
          | none =>
              refine hstray ?_
              simp only [decodeUtf8At, if_neg hascii, if_neg htwo, if_neg hthree, if_pos hfour, h1]
          | some b1 =>
              cases h2 : continuation s (pos + 2) with
              | none =>
                  refine hstray ?_
                  simp only [decodeUtf8At, if_neg hascii, if_neg htwo, if_neg hthree,
                    if_pos hfour, h1, h2]
              | some b2 =>
                  cases h3 : continuation s (pos + 3) with
                  | none =>
                      refine hstray ?_
                      simp only [decodeUtf8At, if_neg hascii, if_neg htwo, if_neg hthree,
                        if_pos hfour, h1, h2, h3]
                  | some b3 =>
                      by_cases hvalid :
                          (s.getD pos 0 &&& 0x07).toNat <<< 18 ||| b1 <<< 12 ||| b2 <<< 6 ||| b3 <
                            0x10000 ∨
                          (s.getD pos 0 &&& 0x07).toNat <<< 18 ||| b1 <<< 12 ||| b2 <<< 6 ||| b3 >
                            0x10FFFF
                      · refine hstray ?_
                        simp only [decodeUtf8At, if_neg hascii, if_neg htwo, if_neg hthree,
                          if_pos hfour, h1, h2, h3, if_pos hvalid]
                      · have hstep :=
                          decodesAt_four hascii htwo hthree hfour h1 h2 h3 hvalid
                        rw [hstep.same s pos hstep.bound fun _ _ => rfl]
                        exact .inl hstep
        · refine hstray ?_
          simp only [decodeUtf8At, if_neg hascii, if_neg htwo, if_neg hthree, if_neg hfour]

end Steps

theorem DecodesAt.decode {s : ByteString} {pos cp n : Nat} (h : DecodesAt s pos cp n) :
    decodeUtf8At s pos = (cp, n) :=
  h.same s pos h.bound fun _ _ => rfl

/-- What decodes below the invalid bytes is a sequence. -/
theorem decodesAt_of_lt {s : ByteString} {pos cp n : Nat} (hpos : pos < s.length)
    (h : decodeUtf8At s pos = (cp, n)) (hcp : cp < invalidByteBase) : DecodesAt s pos cp n := by
  obtain hvalid | ⟨-, hstray⟩ := decodeUtf8At_cases hpos
  · rwa [h] at hvalid
  · rw [h, Prod.mk.injEq] at hstray
    omega

/-! ## the code -/

/-- The value of bytes that are one sequence. -/
def sequenceValue (w : ByteString) : Option Nat :=
  if (decodeUtf8At w 0).2 = w.length ∧ (decodeUtf8At w 0).1 < invalidByteBase then
    some (decodeUtf8At w 0).1
  else none

theorem sequenceValue_eq_some_iff {w : ByteString} {cp : Nat} :
    sequenceValue w = some cp ↔ DecodesAt w 0 cp w.length := by
  unfold sequenceValue
  constructor
  · intro h
    split at h
    · next hdecode =>
        have hpos : 0 < w.length := hdecode.1 ▸ decodeUtf8At_length_pos w 0
        obtain rfl := Option.some.inj h
        exact decodesAt_of_lt hpos (Prod.ext rfl hdecode.1) hdecode.2
    · contradiction
  · intro h
    rw [h.decode, if_pos ⟨rfl, h.scalar.lt⟩]

/-- The same sequence among other bytes. -/
theorem decodesAt_append (before after : ByteString) {w : ByteString} {cp : Nat}
    (h : sequenceValue w = some cp) :
    DecodesAt (before ++ w ++ after) before.length cp w.length := by
  have hw := sequenceValue_eq_some_iff.mp h
  refine decodesAt_of_lt ?_ (hw.same _ _ ?_ ?_) hw.scalar.lt
  · have hpos := hw.length_pos
    simp only [List.length_append]
    omega
  · simp only [List.length_append]
    omega
  · intro k hk
    rw [List.append_assoc, List.getD_append_right _ _ _ _ (by omega),
      List.getD_append _ _ _ _ (by omega)]
    simp

/-- The bytes of a sequence, taken out. -/
theorem DecodesAt.sequence {s : ByteString} {pos cp n : Nat} (h : DecodesAt s pos cp n) :
    sequenceValue ((s.drop pos).take n) = some cp ∧ ((s.drop pos).take n).length = n := by
  have hbound := h.bound
  have hlength : ((s.drop pos).take n).length = n := by
    rw [List.length_take, List.length_drop]
    omega
  refine ⟨sequenceValue_eq_some_iff.mpr ?_, hlength⟩
  rw [hlength]
  refine decodesAt_of_lt (by have := h.length_pos; omega) (h.same _ _ (by omega) ?_) h.scalar.lt
  intro k hk
  rw [List.getD_eq_getElem?_getD, List.getD_eq_getElem?_getD, Nat.zero_add,
    List.getElem?_take_of_lt hk, List.getElem?_drop]

/-- The valid sequences of UTF-8, as the decoder has them. -/
def sequences : Code UInt8 Nat where
  value := sequenceValue
  continues := Utf8.continues
  lead := by
    intro w cp h
    have hw := sequenceValue_eq_some_iff.mp h
    cases w with
    | nil => exact absurd hw.length_pos (by decide)
    | cons lead rest =>
        refine ⟨lead, rest, rfl, hw.lead, ?_⟩
        intro b hb
        obtain ⟨k, hk, rfl⟩ := List.getElem_of_mem hb
        have hcont := hw.rest (k + 1) (by omega) (by simpa using hk)
        rw [Nat.zero_add, List.getD_cons_succ, List.getD_eq_getElem _ _ hk] at hcont
        exact hcont
  alone := by
    intro w x cp cp' h h'
    have hw : DecodesAt (w ++ x) 0 cp w.length := decodesAt_append [] x h
    have hwx := sequenceValue_eq_some_iff.mp h'
    have hlength := congrArg Prod.snd (hw.decode.symm.trans hwx.decode)
    simp only [List.length_append] at hlength
    exact List.eq_nil_of_length_eq_zero (by omega)

/-- What the decoder makes of a piece: its code point and its length. -/
def unit : Piece UInt8 Nat → Nat × Nat
  | .sequence w cp => (cp, w.length)
  | .stray b => (invalidByteBase + b.toNat, 1)

@[simp] theorem unit_sequence (w : ByteString) (cp : Nat) :
    unit (.sequence w cp) = (cp, w.length) := rfl

@[simp] theorem unit_stray (b : UInt8) : unit (.stray b) = (invalidByteBase + b.toNat, 1) := rfl

theorem length_items (p : Piece UInt8 Nat) : p.items.length = (unit p).2 := by
  cases p <;> rfl

/-! ## forward -/

/-- A sequence at the front of what is left. -/
theorem decodesAt_of_prefix {s w : ByteString} {pos cp : Nat} (hpos : pos ≤ s.length)
    (hvalue : sequenceValue w = some cp) (hpre : w <+: s.drop pos) :
    DecodesAt s pos cp w.length := by
  obtain ⟨after, hafter⟩ := hpre
  have hat := decodesAt_append (s.take pos) after hvalue
  rw [List.append_assoc, hafter, List.take_append_drop, List.length_take,
    Nat.min_eq_left hpos] at hat
  exact hat

/-- The forward step takes the piece at the front. -/
theorem exists_heads {s : ByteString} {pos : Nat} (hpos : pos < s.length) :
    ∃ p : Piece UInt8 Nat, p.Heads sequences (s.drop pos) ∧ p.items <+: s.drop pos ∧
      unit p = decodeUtf8At s pos := by
  obtain hvalid | ⟨-, hstray⟩ := decodeUtf8At_cases hpos
  · obtain ⟨hvalue, hlength⟩ := hvalid.sequence
    refine ⟨.sequence _ _, ⟨hvalue, List.take_prefix _ _⟩, List.take_prefix _ _, ?_⟩
    rw [unit_sequence, hlength]
  · have hdrop : s.drop pos = s.getD pos 0 :: s.drop (pos + 1) := by
      rw [List.getD_eq_getElem _ _ hpos, List.getElem_cons_drop]
    refine ⟨.stray (s.getD pos 0), ⟨by rw [hdrop]; rfl, ?_⟩, ?_, hstray.symm⟩
    · intro w cp hw hpre
      have hat := decodesAt_of_prefix (Nat.le_of_lt hpos) hw hpre
      have heq := congrArg Prod.fst (hat.decode.symm.trans hstray)
      have hlt := hat.scalar.lt
      simp only at heq
      omega
    · rw [hdrop]
      exact List.prefix_append [_] _

theorem decode_of_heads {p : Piece UInt8 Nat} {s : ByteString} {pos : Nat}
    (hpos : pos < s.length) (h : p.Heads sequences (s.drop pos)) :
    decodeUtf8At s pos = unit p := by
  obtain ⟨q, hq, -, hunit⟩ := exists_heads hpos
  rw [h.eq hq, hunit]

/-- Every byte string splits into pieces. -/
theorem exists_splits (s : ByteString) : ∃ pieces, Splits sequences pieces ∧ items pieces = s := by
  induction hn : s.length using Nat.strongRecOn generalizing s with
  | ind n ih =>
      cases s with
      | nil => exact ⟨[], trivial, rfl⟩
      | cons b rest =>
          have hpos : 0 < (b :: rest).length := Nat.succ_pos _
          obtain ⟨p, hp, ⟨s', hs'⟩, hunit⟩ := exists_heads hpos
          rw [List.drop_zero] at hp hs'
          have hstep := decodeUtf8At_length_pos (b :: rest) 0
          have hlength := congrArg List.length hs'
          rw [List.length_append, length_items, hunit] at hlength
          obtain ⟨pieces, hsplits, rfl⟩ := ih s'.length (by omega) s' rfl
          exact ⟨p :: pieces, ⟨by rwa [items_cons, hs'], hsplits⟩, hs'⟩

/-- The units from `pos` on, by the forward step. -/
def unitsFrom (s : ByteString) (pos : Nat) : List (Nat × Nat) :=
  if pos < s.length then decodeUtf8At s pos :: unitsFrom s (pos + (decodeUtf8At s pos).2) else []
termination_by s.length - pos
decreasing_by
  have hlength := decodeUtf8At_length_pos s pos
  omega

/-- The first of the pieces from `pos` on, and where the others begin. -/
theorem splits_cons {p : Piece UInt8 Nat} {pieces : List (Piece UInt8 Nat)}
    (h : Splits sequences (p :: pieces)) {s : ByteString} {pos : Nat}
    (hs : items (p :: pieces) = s.drop pos) :
    pos < s.length ∧ decodeUtf8At s pos = unit p ∧ items pieces = s.drop (pos + (unit p).2) := by
  have hlength := congrArg List.length hs
  rw [items_cons, List.length_append, length_items, List.length_drop] at hlength
  have hunit : 0 < (unit p).2 := by
    cases p with
    | sequence w cp => exact List.length_pos_iff.mpr (Code.ne_nil h.1.1)
    | stray b => exact Nat.one_pos
  have hpos : pos < s.length := by omega
  have hheads : p.Heads sequences (s.drop pos) := by
    rw [← hs]
    exact h.1
  refine ⟨hpos, decode_of_heads hpos hheads, ?_⟩
  rw [← List.drop_drop, ← hs, items_cons, ← length_items, List.drop_left]

/-- The forward steps take the pieces. -/
theorem unitsFrom_eq {pieces : List (Piece UInt8 Nat)} (h : Splits sequences pieces)
    {s : ByteString} {pos : Nat} (hs : items pieces = s.drop pos) :
    unitsFrom s pos = pieces.map unit := by
  induction pieces generalizing pos with
  | nil =>
      have hpos : ¬ pos < s.length := by
        rw [items_nil, eq_comm, List.drop_eq_nil_iff] at hs
        omega
      rw [unitsFrom, if_neg hpos, List.map_nil]
  | cons p pieces ih =>
      obtain ⟨hpos, hdecode, hrest⟩ := splits_cons h hs
      rw [unitsFrom, if_pos hpos, hdecode, ih h.2 hrest, List.map_cons]

/-! ## backward -/

theorem decodesAt_length_one {s : ByteString} {pos cp : Nat} (h : DecodesAt s pos cp 1) :
    s.getD pos 0 < 0x80 ∧ cp = (s.getD pos 0).toNat := by
  have hsame := h.same [s.getD pos 0] 0 (by simp) (by simp)
  by_cases hascii : s.getD pos 0 < 0x80
  · rw [decodeUtf8At, List.getD_cons_zero, if_pos hascii, Prod.mk.injEq] at hsame
    exact ⟨hascii, hsame.1.symm⟩
  · -- nothing continues a single byte
    have hnone : ∀ k, continuation [s.getD pos 0] (0 + (k + 1)) = none := by
      intro k
      rw [continuation, if_pos (by simp)]
    have hstray : decodeUtf8At [s.getD pos 0] 0 =
        (invalidByteBase + (s.getD pos 0).toNat, 1) := by
      simp only [decodeUtf8At, List.getD_cons_zero, if_neg hascii, hnone 0, hnone 1, hnone 2,
        ite_self]
    have hlt := h.scalar.lt
    rw [hstray, Prod.mk.injEq] at hsame
    omega

theorem sequenceStart_le (s : ByteString) (stop start : Nat) :
    sequenceStart s stop start ≤ start := by
  induction start with
  | zero => exact Nat.le_refl 0
  | succ start ih =>
      rw [sequenceStart]
      split
      · omega
      · exact Nat.le_refl _

/-- Back from a byte of a sequence to the byte that leads it. -/
theorem sequenceStart_eq {s : ByteString} {pos cp n : Nat} (h : DecodesAt s pos cp n) :
    ∀ k, k < n → sequenceStart s (pos + n) (pos + k) = pos := by
  intro k hk
  induction k with
  | zero =>
      rw [Nat.add_zero]
      cases pos with
      | zero => rfl
      | succ pos =>
          have hlead : ¬ s.getD (pos + 1) 0 &&& 0xC0 = 0x80 := by
            have := h.lead
            simpa [Utf8.continues] using this
          rw [sequenceStart, if_neg fun hstep => hlead hstep.2]
  | succ k ih =>
      have hcont : s.getD (pos + k + 1) 0 &&& 0xC0 = 0x80 := by
        simpa [Utf8.continues, Nat.add_assoc] using h.rest (k + 1) (by omega) hk
      have hle := h.length_le
      rw [← Nat.add_assoc, sequenceStart, if_pos ⟨by omega, hcont⟩]
      exact ih (by omega)

/-- The backward step takes the piece at the back. -/
theorem decodeBefore_of_ends {p : Piece UInt8 Nat} {s : ByteString} {stop : Nat}
    (hstop : stop ≤ s.length) (h : p.Ends sequences (s.take stop)) :
    decodeUtf8Before s stop = unit p := by
  have hlength : (s.take stop).length = stop := by
    rw [List.length_take]
    omega
  cases p with
  | sequence w cp =>
      obtain ⟨hvalue, before, hbefore⟩ := h
      have hat := decodesAt_append before (s.drop stop) hvalue
      rw [hbefore, List.take_append_drop] at hat
      have hend : before.length + w.length = stop := by
        rw [← List.length_append, hbefore, hlength]
      have hpos := hat.length_pos
      rw [unit_sequence, decodeUtf8Before]
      by_cases hone : w.length = 1
      · rw [hone] at hat
        obtain ⟨hascii, rfl⟩ := decodesAt_length_one hat
        have hlast : stop - 1 = before.length := by omega
        simp only [hlast, hascii, if_true, hone]
      · have hlast : before.length + (w.length - 1) = stop - 1 := by omega
        have hcont := hat.rest (w.length - 1) (by omega) (by omega)
        rw [hlast] at hcont
        have hnotAscii : ¬ s.getD (stop - 1) 0 < 0x80 := by
          intro hascii
          rw [lead_of_lt hascii] at hcont
          contradiction
        have hstart := sequenceStart_eq hat (w.length - 1) (by omega)
        rw [hlast, hend] at hstart
        simp only [hnotAscii, if_false, hstart, hat.decode, hend, hat.scalar.lt, and_self, if_true]
  | stray b =>
      obtain ⟨hlast, hnone⟩ := h
      have hpos : 0 < stop := by
        refine Nat.pos_of_ne_zero ?_
        rintro rfl
        simp at hlast
      have hb : s.getD (stop - 1) 0 = b := by
        rw [List.getLast?_eq_getElem?, hlength, List.getElem?_take_of_lt (by omega)] at hlast
        rw [List.getD_eq_getElem?_getD, hlast, Option.getD_some]
      -- the sequence the step would find, taken out of the bytes before `stop`
      have hsuffix : ∀ {start cp n : Nat}, DecodesAt s start cp n → ¬ start + n = stop := by
        intro start cp n hat hend
        obtain ⟨hvalue, hn⟩ := hat.sequence
        refine hnone _ _ hvalue ⟨s.take start, ?_⟩
        rw [← hend, List.take_add]
      have hnotAscii : ¬ b < 0x80 := by
        intro hascii
        have hone : DecodesAt s (stop - 1) (s.getD (stop - 1) 0).toNat 1 :=
          decodesAt_one (by omega) (hb ▸ hascii)
        exact hsuffix hone (by omega)
      rw [unit_stray, decodeUtf8Before]
      simp only [hb, hnotAscii, if_false]
      rw [if_neg]
      intro ⟨hend, hvalue⟩
      have hle := sequenceStart_le s stop (stop - 1)
      exact hsuffix (decodesAt_of_lt (by omega) rfl hvalue) hend

/-- The last of the pieces before `stop`, and where the others end. -/
theorem splits_concat {p : Piece UInt8 Nat} {pieces : List (Piece UInt8 Nat)}
    (h : Splits sequences (pieces ++ [p])) {s : ByteString} {stop : Nat} (hstop : stop ≤ s.length)
    (hs : items (pieces ++ [p]) = s.take stop) :
    0 < stop ∧ decodeUtf8Before s stop = unit p ∧
      items pieces = s.take (stop - (unit p).2) := by
  have hends : p.Ends sequences (s.take stop) := by
    rw [← hs]
    exact h.ends
  have hdecode := decodeBefore_of_ends hstop hends
  have hlength := congrArg List.length hs
  rw [items_append, items_cons, items_nil, List.append_nil, List.length_append, length_items,
    List.length_take] at hlength
  have hpos : 0 < (unit p).2 := hdecode ▸ decodeUtf8Before_length_pos s stop
  have hcut : items pieces = (items (pieces ++ [p])).take (items pieces).length := by
    rw [items_append, List.take_left]
  refine ⟨by omega, hdecode, ?_⟩
  rw [hcut, hs, List.take_take]
  congr 1
  omega

/-- The units before `stop`, by the backward step. -/
def unitsBefore (s : ByteString) (stop : Nat) : List (Nat × Nat) :=
  if 0 < stop then
    unitsBefore s (stop - (decodeUtf8Before s stop).2) ++ [decodeUtf8Before s stop]
  else []
termination_by stop
decreasing_by
  have hlength := decodeUtf8Before_length_pos s stop
  omega

/-- The backward steps take the pieces, last to first. -/
theorem unitsBefore_eq {pieces : List (Piece UInt8 Nat)} (h : Splits sequences pieces)
    {s : ByteString} {stop : Nat} (hstop : stop ≤ s.length) (hs : items pieces = s.take stop) :
    unitsBefore s stop = pieces.map unit := by
  induction pieces using List.reverseRecOn generalizing stop with
  | nil =>
      have hzero : stop = 0 := by
        have hlength := congrArg List.length hs
        rw [List.length_take] at hlength
        simp at hlength
        omega
      rw [unitsBefore, hzero, if_neg (Nat.lt_irrefl 0), List.map_nil]
  | append_singleton pieces p ih =>
      obtain ⟨hpos, hdecode, hrest⟩ := splits_concat h hstop hs
      rw [unitsBefore, if_pos hpos, hdecode, ih h.left (by omega) hrest, List.map_append,
        List.map_singleton]

/-- Read from the back, a byte string falls into the units it falls into read
from the front. -/
theorem unitsFrom_eq_unitsBefore (s : ByteString) : unitsFrom s 0 = unitsBefore s s.length := by
  obtain ⟨pieces, hsplits, hitems⟩ := exists_splits s
  rw [unitsFrom_eq hsplits (by rw [hitems, List.drop_zero]),
    unitsBefore_eq hsplits (Nat.le_refl _) (by rw [hitems, List.take_length])]

end DispatcharrPvr
