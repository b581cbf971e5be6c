import DispatcharrPvr.Lib.Cut

/-!
# Lib.Percent

Percent-encoding of bytes, and queries put together from encoded values.

* `encode keep` writes the bytes `keep` does not take as `%XX`; `decode` reads
  them back (`decode_encode`), and what is written is kept bytes, percent signs
  and hexadecimal digits (`mem_encode`);
* `queryText` joins names and values with `=` and `&`, and `parseQuery` takes
  them apart (`parseQuery_queryText`).

This module depends only on the Lean 4 core library.
-/

namespace Percent

/-- A hexadecimal digit, in upper case. -/
def hexDigit (n : Nat) : UInt8 := if n < 10 then (48 + n).toUInt8 else (55 + n).toUInt8

/-- The value of a hexadecimal digit, of either case. -/
def hexValue (b : UInt8) : Option Nat :=
  if 48 ≤ b ∧ b ≤ 57 then some (b.toNat - 48)
  else if 65 ≤ b ∧ b ≤ 70 then some (b.toNat - 55)
  else if 97 ≤ b ∧ b ≤ 102 then some (b.toNat - 87)
  else none

theorem hexValue_hexDigit {n : Nat} (h : n < 16) : hexValue (hexDigit n) = some n := by
  have hall : ∀ n : Fin 16, hexValue (hexDigit n.val) = some n.val := by decide
  exact hall ⟨n, h⟩

/-- One byte, encoded. -/
def encodeByte (keep : UInt8 → Bool) (b : UInt8) : List UInt8 :=
  if keep b then [b] else [37, hexDigit (b.toNat / 16), hexDigit (b.toNat % 16)]

/-- Bytes, encoded. -/
def encode (keep : UInt8 → Bool) (s : List UInt8) : List UInt8 := s.flatMap (encodeByte keep)

/-- The byte that two hexadecimal digits at the front stand for. -/
def escaped : List UInt8 → Option UInt8
  | high :: low :: _ =>
      match hexValue high, hexValue low with
      | some h, some l => some (16 * h + l).toUInt8
      | _, _ => none
  | _ => none

/-- Percent-decoding behind `skip` bytes already read. -/
def decodeFrom : Nat → List UInt8 → List UInt8
  | _, [] => []
  | skip + 1, _ :: rest => decodeFrom skip rest
  | 0, b :: rest =>
      if b = 37 then
        match escaped rest with
        | some c => c :: decodeFrom 2 rest
        | none => b :: decodeFrom 0 rest
      else b :: decodeFrom 0 rest

/-- Percent-decoding; a percent sign without two digits stands for itself. -/
def decode (s : List UInt8) : List UInt8 := decodeFrom 0 s

theorem decode_cons_of_ne {b : UInt8} (h : b ≠ 37) (rest : List UInt8) :
    decode (b :: rest) = b :: decode rest :=
  if_neg h

theorem decode_escape {high low : UInt8} {h l : Nat} (hhigh : hexValue high = some h)
    (hlow : hexValue low = some l) (rest : List UInt8) :
    decode (37 :: high :: low :: rest) = (16 * h + l).toUInt8 :: decode rest := by
  rw [decode, decodeFrom, if_pos rfl, escaped, hhigh, hlow]
  rfl

section Keep

variable {keep : UInt8 → Bool}

theorem decode_encodeByte (hkeep : keep 37 = false) (b : UInt8) (rest : List UInt8) :
    decode (encodeByte keep b ++ rest) = b :: decode rest := by
  unfold encodeByte
  split
  · next hb =>
      have hne : b ≠ 37 := by
        rintro rfl
        rw [hkeep] at hb
        contradiction
      exact decode_cons_of_ne hne rest
  · have hlt := b.toNat_lt
    have hhigh : hexValue (hexDigit (b.toNat / 16)) = some (b.toNat / 16) :=
      hexValue_hexDigit (by omega)
    have hlow : hexValue (hexDigit (b.toNat % 16)) = some (b.toNat % 16) :=
      hexValue_hexDigit (Nat.mod_lt _ (by decide))
    show decode (37 :: _ :: _ :: rest) = _
    rw [decode_escape hhigh hlow, Nat.div_add_mod]
    congr 1
    exact UInt8.ofNat_toNat

/-- What is encoded is decoded. -/
theorem decode_encode (hkeep : keep 37 = false) (s : List UInt8) :
    decode (encode keep s) = s := by
  induction s with
  | nil => rfl
  | cons b s ih =>
      show decode (encodeByte keep b ++ encode keep s) = b :: s
      rw [decode_encodeByte hkeep, ih]

/-- The bytes that are written. -/
theorem mem_encode {s : List UInt8} {b : UInt8} (h : b ∈ encode keep s) :
    keep b = true ∨ b = 37 ∨ ∃ n, n < 16 ∧ b = hexDigit n := by
  obtain ⟨c, -, hc⟩ := List.mem_flatMap.mp h
  unfold encodeByte at hc
  split at hc
  · next hkeep =>
      rw [List.mem_singleton] at hc
      exact .inl (hc ▸ hkeep)
  · have hlt := c.toNat_lt
    simp only [List.mem_cons, List.not_mem_nil, or_false] at hc
    obtain hc | hc | hc := hc
    · exact .inr (.inl hc)
    · exact .inr (.inr ⟨_, by omega, hc⟩)
    · exact .inr (.inr ⟨_, Nat.mod_lt _ (by decide), hc⟩)

end Keep

/-! ## queries -/

/-- Names and values, as a query. -/
def queryText (pairs : List (List UInt8 × List UInt8)) : List UInt8 :=
  [38].intercalate (pairs.map fun pair => pair.1 ++ 61 :: pair.2)

/-- A query, split at each `&` and there at the first `=`. -/
def parseQuery (text : List UInt8) : List (List UInt8 × List UInt8) :=
  (text.splitOn 38).map fun part => (Cut.cutFirst [61] part).getD (part, [])

/-- Names without separators and values without `&` are read back. -/
theorem parseQuery_queryText {pairs : List (List UInt8 × List UInt8)} (hne : pairs ≠ [])
    (hname : ∀ pair ∈ pairs, 38 ∉ pair.1 ∧ 61 ∉ pair.1) (hvalue : ∀ pair ∈ pairs, 38 ∉ pair.2) :
    parseQuery (queryText pairs) = pairs := by
  have hparts : ∀ part ∈ pairs.map fun pair => pair.1 ++ 61 :: pair.2, 38 ∉ part := by
    intro part hpart
    obtain ⟨pair, hpair, rfl⟩ := List.mem_map.mp hpart
    simp [(hname pair hpair).1, hvalue pair hpair]
  rw [parseQuery, queryText, List.splitOn_intercalate 38 hparts (by simpa using hne), List.map_map]
  refine (List.map_congr_left ?_).trans (List.map_id' pairs)
  intro pair hpair
  show (Cut.cutFirst [61] (pair.1 ++ 61 :: pair.2)).getD _ = pair
  rw [Cut.cutFirst_singleton_eq_some_iff.mpr ⟨rfl, (hname pair hpair).2⟩, Option.getD_some]

end Percent
