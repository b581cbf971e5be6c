/-!
# Lib.Utf8

UTF-8 as bytes.  A text is the encodings of its characters one after another,
each a lead byte and its continuation bytes (`exists_lead`); so the characters
are counted by the bytes that continue none (`length_filter_encode`), and the
bytes before one that continues none encode the first characters
(`exists_take_of_append`).

This module depends only on the Lean 4 core library.
-/

namespace Utf8

/-- A continuation byte, `10xxxxxx`. -/
def continues (b : UInt8) : Bool := b &&& 0xC0 == 0x80

/-- The bytes of characters. -/
def encode (chars : List Char) : List UInt8 := chars.flatMap String.utf8EncodeChar

/-- The bytes are those of characters. -/
def Valid (bytes : List UInt8) : Prop := ∃ chars, bytes = encode chars

@[simp] theorem encode_nil : encode [] = [] := rfl

@[simp] theorem encode_cons (c : Char) (chars : List Char) :
    encode (c :: chars) = String.utf8EncodeChar c ++ encode chars := rfl

@[simp] theorem encode_append (a b : List Char) : encode (a ++ b) = encode a ++ encode b :=
  List.flatMap_append

theorem continues_or (b : UInt8) : continues (b &&& 0x3f ||| 0x80) = true := by
  have hall : ∀ b : BitVec 8, continues (UInt8.ofBitVec b &&& 0x3f ||| 0x80) = true := by decide
  exact hall b.toBitVec

theorem continues_lead {b : UInt8} (h : b.IsUTF8FirstByte) : continues b = false := by
  have hall : ∀ b : BitVec 8, (UInt8.ofBitVec b).IsUTF8FirstByte →
      continues (UInt8.ofBitVec b) = false := by decide
  exact hall b.toBitVec h

/-- A character is a lead byte and its continuation bytes. -/
theorem exists_lead (c : Char) : ∃ lead rest, String.utf8EncodeChar c = lead :: rest ∧
    continues lead = false ∧ ∀ b ∈ rest, continues b = true := by
  have hlead : ∀ {lead rest}, String.utf8EncodeChar c = lead :: rest → continues lead = false := by
    intro lead rest heq
    have hfirst := UInt8.isUTF8FirstByte_getElem_zero_utf8EncodeChar (c := c)
    simp only [heq, List.getElem_cons_zero] at hfirst
    exact continues_lead hfirst
  have hsize := c.utf8Size_pos
  have hsize' := c.utf8Size_le_four
  have hcases : c.utf8Size = 1 ∨ c.utf8Size = 2 ∨ c.utf8Size = 3 ∨ c.utf8Size = 4 := by omega
  rcases hcases with h | h | h | h
  · have heq := String.utf8EncodeChar_eq_singleton h
    exact ⟨_, _, heq, hlead heq, by simp⟩
  · have heq := String.utf8EncodeChar_eq_cons_cons h
    exact ⟨_, _, heq, hlead heq, by simp [continues_or]⟩
  · have heq := String.utf8EncodeChar_eq_cons_cons_cons h
    exact ⟨_, _, heq, hlead heq, by simp [continues_or]⟩
  · have heq := String.utf8EncodeChar_eq_cons_cons_cons_cons h
    exact ⟨_, _, heq, hlead heq, by simp [continues_or]⟩

/-- The bytes of characters do not begin with a continuation byte. -/
theorem takeWhile_encode (chars : List Char) :
    (encode chars).takeWhile continues = [] ∧ (encode chars).dropWhile continues = encode chars := by
  cases chars with
  | nil => exact ⟨rfl, rfl⟩
  | cons c chars =>
      obtain ⟨lead, rest, heq, hlead, -⟩ := exists_lead c
      rw [encode_cons, heq, List.cons_append, List.takeWhile_cons, List.dropWhile_cons, hlead]
      exact ⟨rfl, rfl⟩

/-- The continuation bytes behind a lead byte end with its character. -/
theorem takeWhile_append_encode {rest : List UInt8} (h : ∀ b ∈ rest, continues b = true)
    (chars : List Char) :
    (rest ++ encode chars).takeWhile continues = rest ∧
      (rest ++ encode chars).dropWhile continues = encode chars := by
  obtain ⟨htake, hdrop⟩ := takeWhile_encode chars
  rw [List.takeWhile_append_of_pos h, List.dropWhile_append_of_pos h, htake, hdrop]
  exact ⟨List.append_nil rest, rfl⟩

/-- The characters are counted by their lead bytes. -/
theorem length_filter_encode (chars : List Char) :
    ((encode chars).filter fun b => !continues b).length = chars.length := by
  induction chars with
  | nil => rfl
  | cons c chars ih =>
      obtain ⟨lead, rest, heq, hlead, hrest⟩ := exists_lead c
      have hnone : rest.filter (fun b => !continues b) = [] := by
        rw [List.filter_eq_nil_iff]
        intro b hb
        simp [hrest b hb]
      rw [encode_cons, heq, List.filter_append, List.filter_cons, hlead, hnone]
      simp [ih]

/-- A cut before a byte that continues none is a cut between characters. -/
theorem exists_take_of_append {chars : List Char} {before : List UInt8} {b : UInt8}
    {after : List UInt8} (hb : continues b = false) (h : encode chars = before ++ b :: after) :
    ∃ k, before = encode (chars.take k) := by
  induction chars generalizing before with
  | nil => simp at h
  | cons c chars ih =>
      obtain ⟨lead, rest, heq, hlead, hrest⟩ := exists_lead c
      cases before with
      | nil => exact ⟨0, rfl⟩
      | cons first before =>
          rw [encode_cons, heq, List.cons_append, List.cons_append, List.cons.injEq] at h
          obtain ⟨rfl, h⟩ := h
          rcases List.append_eq_append_iff.mp h with ⟨before', rfl, hbefore⟩ | ⟨rest', rfl, hrest'⟩
          · obtain ⟨k, hk⟩ := ih hbefore
            exact ⟨k + 1, by rw [List.take_succ_cons, encode_cons, heq, hk, List.cons_append]⟩
          · cases rest' with
            | nil =>
                refine ⟨1, ?_⟩
                rw [List.take_succ_cons, List.take_zero, encode_cons, heq, encode_nil]
                simp
            | cons b' rest' =>
                -- the byte would be among the continuation bytes of this character
                rw [List.cons_append, List.cons.injEq] at hrest'
                have htrue := hrest b' (by simp)
                rw [← hrest'.1, hb] at htrue
                contradiction

/-- ASCII is its own encoding. -/
theorem encode_of_ascii {chars : List Char} (h : ∀ c ∈ chars, c.val < 0x80) :
    encode chars = chars.map fun c => c.toNat.toUInt8 := by
  induction chars with
  | nil => rfl
  | cons c chars ih =>
      have hc : c.val ≤ 127 := by
        have hlt := h c List.mem_cons_self
        rw [UInt32.lt_iff_toNat_lt] at hlt
        rw [UInt32.le_iff_toNat_le]
        exact Nat.le_of_lt_succ hlt
      rw [encode_cons, ih fun c' hmem => h c' (List.mem_cons_of_mem c hmem),
        String.utf8EncodeChar_eq_singleton (Char.utf8Size_eq_one_iff.mpr hc)]
      rfl

end Utf8
