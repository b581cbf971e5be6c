import DispatcharrPvr.UnicodeText.Units

/-!
# JsonResponse

A server's error body made fit for an error string (`SanitizeServerErrorBody`):
cut to a limit, control characters replaced, a note of what was dropped.

The cut falls between pieces of the body, so what is kept splits as it did in
the body; a control becomes a space, which is a sequence of its own.
-/

namespace DispatcharrPvr

open Resync

/-! ## the source -/

/-- Back from `stop` over continuation bytes. -/
def sequenceCut (body : ByteString) : Nat → Nat
  | 0 => 0
  | stop + 1 =>
      if body.getD (stop + 1) 0 &&& 0xC0 = 0x80 then sequenceCut body stop else stop + 1

/-- `end`: where the body is cut. -/
def errorBodyEnd (body : ByteString) (maxBytes : Nat) : Nat :=
  if min body.length maxBytes < body.length then sequenceCut body (min body.length maxBytes)
  else min body.length maxBytes

/-- Whether the unit the decoder has found at `pos` is a control character. -/
def isControlAt (kept : ByteString) (pos : Nat) : Bool :=
  let (cp, length) := decodeUtf8At kept pos
  let lead := kept.getD pos 0
  let stray := length = 1 ∧ 0x80 ≤ lead ∧ lead ≤ 0x9F
  cp < 0x20 ∨ cp = 0x7F ∨ (0x80 ≤ cp ∧ cp ≤ 0x9F) ∨ stray

/-- The loop over what is kept, from `pos` on. -/
def sanitizeFrom (kept : ByteString) (pos : Nat) : ByteString :=
  if pos < kept.length then
    (if isControlAt kept pos then [32] else (kept.drop pos).take (decodeUtf8At kept pos).2) ++
      sanitizeFrom kept (pos + (decodeUtf8At kept pos).2)
  else []
termination_by kept.length - pos
decreasing_by
  have hlength := decodeUtf8At_length_pos kept pos
  omega

/-- The note of what is not shown. -/
def notShown (bytes : Nat) : ByteString :=
  ascii "... [" ++ toByteString bytes ++ ascii " more bytes not shown]"

/-- `SanitizeServerErrorBody`. -/
def sanitizeServerErrorBody (body : ByteString) (maxBytes : Nat) : ByteString :=
  let stop := errorBodyEnd body maxBytes
  sanitizeFrom (body.take stop) 0 ++
    if stop < body.length then notShown (body.length - stop) else []

/-! ## the cut -/

theorem sequenceCut_spec (body : ByteString) (stop : Nat) :
    sequenceCut body stop ≤ stop ∧ (sequenceCut body stop = 0 ∨
      Utf8.continues (body.getD (sequenceCut body stop) 0) = false) := by
  induction stop with
  | zero => exact ⟨Nat.le_refl 0, .inl rfl⟩
  | succ stop ih =>
      rw [sequenceCut]
      split
      · exact ⟨Nat.le_succ_of_le ih.1, ih.2⟩
      · next hlead => exact ⟨Nat.le_refl _, .inr (by simpa [Utf8.continues] using hlead)⟩

/-- The body is cut between two of its pieces, within the limit. -/
theorem exists_cut_errorBody {body : ByteString} {pieces : List (Piece UInt8 Nat)}
    (h : Splits sequences pieces) (hbody : items pieces = body) (maxBytes : Nat) :
    errorBodyEnd body maxBytes ≤ min body.length maxBytes ∧
      ∃ shown dropped, pieces = shown ++ dropped ∧
        items shown = body.take (errorBodyEnd body maxBytes) ∧
        items dropped = body.drop (errorBodyEnd body maxBytes) := by
  have hwhole : ∀ stop, stop = body.length → ∃ shown dropped, pieces = shown ++ dropped ∧
      items shown = body.take stop ∧ items dropped = body.drop stop := by
    rintro _ rfl
    exact ⟨pieces, [], by simp, by rw [hbody, List.take_length], by simp⟩
  unfold errorBodyEnd
  split
  · next hcut =>
      obtain ⟨hle, hlead⟩ := sequenceCut_spec body (min body.length maxBytes)
      refine ⟨hle, ?_⟩
      obtain hzero | hlead := hlead
      · exact ⟨[], pieces, rfl, by rw [hzero]; rfl, by rw [hzero, hbody, List.drop_zero]⟩
      · -- the byte at the cut leads a piece
        have hlt : sequenceCut body (min body.length maxBytes) < body.length := by omega
        have hdrop := List.drop_eq_getElem_cons hlt
        rw [List.getD_eq_getElem _ _ hlt] at hlead
        obtain ⟨shown, dropped, heq, hshown, hdropped⟩ := h.exists_cut hlead
          (show items pieces = body.take _ ++ _ :: body.drop _ by
            rw [hbody, ← hdrop, List.take_append_drop])
        exact ⟨shown, dropped, heq, hshown, hdropped.trans hdrop.symm⟩
  · next hcut => exact ⟨Nat.le_refl _, hwhole _ (by omega)⟩

/-! ## the replacement -/

/-- A control character, as a unit of the decoder. -/
def isControlUnit (u : Nat × Nat) : Bool :=
  u.1 < 0x20 ∨ u.1 = 0x7F ∨ (0x80 ≤ u.1 ∧ u.1 ≤ 0x9F) ∨
    (invalidByteBase + 0x80 ≤ u.1 ∧ u.1 ≤ invalidByteBase + 0x9F)

/-- What a piece becomes: one space, or itself. -/
def sanitizePiece (p : Piece UInt8 Nat) : Piece UInt8 Nat :=
  if isControlUnit (unit p) then .sequence [32] 32 else p

theorem sequenceValue_ascii {b : UInt8} (h : b < 0x80) : sequenceValue [b] = some b.toNat :=
  have hone : DecodesAt [b] 0 b.toNat 1 := decodesAt_one Nat.one_pos h
  sequenceValue_eq_some_iff.mpr hone

theorem sequenceValue_space : sequenceValue [32] = some 32 :=
  sequenceValue_ascii (b := 32) (by decide)

theorem isControlUnit_sanitizePiece (p : Piece UInt8 Nat) :
    isControlUnit (unit (sanitizePiece p)) = false := by
  unfold sanitizePiece
  split
  · rfl
  · next hcontrol => simpa using hcontrol

theorem splits_sanitizePiece {pieces : List (Piece UInt8 Nat)} (h : Splits sequences pieces) :
    Splits sequences (pieces.map sanitizePiece) := by
  refine h.map ?_
  intro p _
  unfold sanitizePiece
  split
  · exact .inr ⟨[32], 32, rfl, sequenceValue_space⟩
  · exact .inl rfl

/-- The source's test of the unit it has found. -/
theorem isControlAt_eq {p : Piece UInt8 Nat} {kept : ByteString} {pos : Nat}
    (hpos : pos < kept.length) (hp : p.Heads sequences (kept.drop pos)) :
    isControlAt kept pos = isControlUnit (unit p) := by
  have hdecode := decode_of_heads hpos hp
  unfold isControlAt isControlUnit
  rw [hdecode]
  cases p with
  | sequence w cp =>
      have hlt := (sequenceValue_eq_some_iff.mp hp.1).scalar.lt
      have hstray : ¬ (w.length = 1 ∧ 0x80 ≤ kept.getD pos 0 ∧ kept.getD pos 0 ≤ 0x9F) := by
        intro ⟨hone, hlead, _⟩
        have hat := decodesAt_of_prefix (Nat.le_of_lt hpos) hp.1 hp.2
        rw [hone] at hat
        exact absurd (decodesAt_length_one hat).1 (by simpa using hlead)
      have hinvalid : ¬ (invalidByteBase + 0x80 ≤ cp ∧ cp ≤ invalidByteBase + 0x9F) := by omega
      simp only [unit_sequence, hstray, hinvalid]
  | stray b =>
      have hb : kept.getD pos 0 = b := by
        rw [List.getD_eq_getElem?_getD, ← List.head?_drop, hp.1, Option.getD_some]
      have hcp : ¬ (invalidByteBase + b.toNat < 0x20 ∨ invalidByteBase + b.toNat = 0x7F ∨
          (0x80 ≤ invalidByteBase + b.toNat ∧ invalidByteBase + b.toNat ≤ 0x9F)) := by
        unfold invalidByteBase
        omega
      simp only [unit_stray, hb, true_and, UInt8.le_iff_toNat_le, Nat.add_le_add_iff_left]
      rfl

theorem sanitizeFrom_eq {pieces : List (Piece UInt8 Nat)} (h : Splits sequences pieces)
    {kept : ByteString} {pos : Nat} (hs : items pieces = kept.drop pos) :
    sanitizeFrom kept pos = items (pieces.map sanitizePiece) := by
  induction pieces generalizing pos with
  | nil =>
      have hpos : ¬ pos < kept.length := by
        rw [items_nil, eq_comm, List.drop_eq_nil_iff] at hs
        omega
      rw [sanitizeFrom, if_neg hpos, List.map_nil, items_nil]
  | cons p pieces ih =>
      obtain ⟨hpos, hdecode, hrest⟩ := splits_cons h hs
      have hheads : p.Heads sequences (kept.drop pos) := hs ▸ h.1
      have hitems : (kept.drop pos).take (unit p).2 = p.items := by
        rw [← hs, items_cons, ← length_items, List.take_left]
      rw [sanitizeFrom, if_pos hpos, hdecode, ih h.2 hrest, List.map_cons, items_cons,
        isControlAt_eq hpos hheads, hitems]
      congr 1
      unfold sanitizePiece
      split <;> rfl

/-! ## the note -/

/-- ASCII bytes are sequences of their own. -/
def asciiPieces (text : ByteString) : List (Piece UInt8 Nat) :=
  text.map fun b => .sequence [b] b.toNat

theorem items_asciiPieces (text : ByteString) : items (asciiPieces text) = text := by
  induction text with
  | nil => rfl
  | cons b text ih => rw [asciiPieces, List.map_cons, items_cons, ← asciiPieces, ih]; rfl

theorem splits_asciiPieces {text : ByteString} (h : ∀ b ∈ text, b < 0x80) :
    Splits sequences (asciiPieces text) := by
  induction text with
  | nil => trivial
  | cons b text ih =>
      exact ⟨⟨sequenceValue_ascii (h b (by simp)), List.prefix_append _ _⟩,
        ih fun c hc => h c (List.mem_cons_of_mem _ hc)⟩

theorem takeWhile_ascii {text : ByteString} (h : ∀ b ∈ text, b < 0x80) :
    text.takeWhile sequences.continues = [] := by
  cases text with
  | nil => rfl
  | cons b text =>
      rw [List.takeWhile_cons, show sequences.continues b = false from lead_of_lt (h b (by simp))]
      rfl

/-- The note is printable ASCII. -/
theorem printable_notShown (n : Nat) : ∀ b ∈ notShown n, 0x20 ≤ b ∧ b < 0x7F := by
  have hdigits : ∀ b ∈ toByteString n, 0x20 ≤ b ∧ b < 0x7F := by
    intro b hb
    rw [toByteString_natCast] at hb
    have hdigit := List.all_eq_true.mp (Decimal.digits_spec n).1 b hb
    rw [Decimal.isDigit_iff] at hdigit
    rw [UInt8.le_iff_toNat_le, UInt8.lt_iff_toNat_lt]
    exact ⟨Nat.le_trans (by decide) hdigit.1, Nat.lt_of_le_of_lt hdigit.2 (by decide)⟩
  have hbefore : ∀ b ∈ ascii "... [", 0x20 ≤ b ∧ b < 0x7F := by decide +kernel
  have hafter : ∀ b ∈ ascii " more bytes not shown]", 0x20 ≤ b ∧ b < 0x7F := by decide +kernel
  intro b hb
  rw [notShown, List.mem_append, List.mem_append] at hb
  obtain (hb | hb) | hb := hb
  · exact hbefore b hb
  · exact hdigits b hb
  · exact hafter b hb

/-! ## main result -/

/-- The note, if bytes were dropped. -/
def dropNote (bytes : Nat) : ByteString := if 0 < bytes then notShown bytes else []

theorem printable_dropNote (n : Nat) : ∀ b ∈ dropNote n, 0x20 ≤ b ∧ b < 0x7F := by
  unfold dropNote
  split
  · exact printable_notShown n
  · simp

/-- What comes out: the pieces shown, replaced where they are controls, and the
note. -/
theorem sanitizeServerErrorBody_eq {shown : List (Piece UInt8 Nat)} {body : ByteString}
    {maxBytes : Nat} (h : Splits sequences shown)
    (hshown : items shown = body.take (errorBodyEnd body maxBytes)) :
    sanitizeServerErrorBody body maxBytes = items (shown.map sanitizePiece) ++
      dropNote (body.length - errorBodyEnd body maxBytes) := by
  rw [sanitizeServerErrorBody, sanitizeFrom_eq h (by rw [hshown, List.drop_zero]), dropNote]
  congr 1
  by_cases hcut : errorBodyEnd body maxBytes < body.length
  · rw [if_pos hcut, if_pos (Nat.sub_pos_of_lt hcut)]
  · rw [if_neg hcut, if_neg (by omega)]

/-- The pieces of the output. -/
theorem splits_sanitized {shown : List (Piece UInt8 Nat)} (h : Splits sequences shown) (n : Nat) :
    Splits sequences (shown.map sanitizePiece ++ asciiPieces (dropNote n)) := by
  have hascii : ∀ b ∈ dropNote n, b < 0x80 := fun b hb =>
    UInt8.lt_trans (printable_dropNote n b hb).2 (by decide)
  refine (splits_sanitizePiece h).append (splits_asciiPieces hascii) ?_
  rw [items_asciiPieces]
  exact takeWhile_ascii hascii

/-- No unit of the output is a control. -/
theorem not_isControlUnit_sanitized (shown : List (Piece UInt8 Nat)) (n : Nat) :
    ∀ p ∈ shown.map sanitizePiece ++ asciiPieces (dropNote n), isControlUnit (unit p) = false := by
  intro p hp
  rw [List.mem_append, List.mem_map] at hp
  obtain ⟨q, -, rfl⟩ | hp := hp
  · exact isControlUnit_sanitizePiece q
  · obtain ⟨b, hb, rfl⟩ := List.mem_map.mp hp
    obtain ⟨hge, hlt⟩ := printable_dropNote n b hb
    rw [UInt8.le_iff_toNat_le] at hge
    rw [UInt8.lt_iff_toNat_lt] at hlt
    have hge' : 0x20 ≤ b.toNat := hge
    have hlt' : b.toNat < 0x7F := hlt
    have hbelow : ¬ (b.toNat < 0x20 ∨ b.toNat = 0x7F ∨ (0x80 ≤ b.toNat ∧ b.toNat ≤ 0x9F) ∨
        (invalidByteBase + 0x80 ≤ b.toNat ∧ b.toNat ≤ invalidByteBase + 0x9F)) := by
      unfold invalidByteBase
      omega
    exact decide_eq_false hbelow

/-- Where no piece is a control and the limit is not reached, nothing changes. -/
theorem sanitizeServerErrorBody_of_clean {pieces : List (Piece UInt8 Nat)}
    (h : Splits sequences pieces) (hclean : ∀ p ∈ pieces, isControlUnit (unit p) = false)
    {maxBytes : Nat} (hmax : (items pieces).length ≤ maxBytes) :
    sanitizeServerErrorBody (items pieces) maxBytes = items pieces := by
  have hend : errorBodyEnd (items pieces) maxBytes = (items pieces).length := by
    rw [errorBodyEnd, Nat.min_eq_left hmax, if_neg (Nat.lt_irrefl _)]
  have hmap : pieces.map sanitizePiece = pieces := by
    refine (List.map_congr_left ?_).trans (List.map_id' pieces)
    intro p hp
    rw [sanitizePiece, hclean p hp]
    rfl
  rw [sanitizeServerErrorBody_eq h (by rw [hend, List.take_length]), hend, Nat.sub_self, hmap]
  exact List.append_nil _

/-- The body falls into the pieces shown, of at most the limit's bytes, and the
pieces dropped.  Each one shown is kept or becomes one space; the note counts
the bytes dropped; and what comes out has no control in it, so a second pass
leaves it as it is. -/
theorem sanitizeServerErrorBody_spec (body : ByteString) (maxBytes : Nat) :
    ∃ shown dropped : List (Piece UInt8 Nat),
      Splits sequences (shown ++ dropped) ∧ items (shown ++ dropped) = body ∧
      unitsFrom body 0 = (shown ++ dropped).map unit ∧
      (items shown).length ≤ maxBytes ∧
      sanitizeServerErrorBody body maxBytes =
        items (shown.map sanitizePiece) ++ dropNote (items dropped).length ∧
      (∀ u ∈ unitsFrom (sanitizeServerErrorBody body maxBytes) 0, isControlUnit u = false) ∧
      ∀ limit, (sanitizeServerErrorBody body maxBytes).length ≤ limit →
        sanitizeServerErrorBody (sanitizeServerErrorBody body maxBytes) limit =
          sanitizeServerErrorBody body maxBytes := by
  obtain ⟨pieces, hsplits, hbody⟩ := exists_splits body
  obtain ⟨hle, shown, dropped, rfl, hshown, hdropped⟩ :=
    exists_cut_errorBody hsplits hbody maxBytes
  have hlength : (items dropped).length = body.length - errorBodyEnd body maxBytes := by
    rw [hdropped, List.length_drop]
  have heq : sanitizeServerErrorBody body maxBytes =
      items (shown.map sanitizePiece ++ asciiPieces (dropNote (items dropped).length)) := by
    rw [sanitizeServerErrorBody_eq hsplits.left hshown, items_append, items_asciiPieces, hlength]
  have hout := splits_sanitized hsplits.left (items dropped).length
  have hclean := not_isControlUnit_sanitized shown (items dropped).length
  refine ⟨shown, dropped, hsplits, hbody, ?_, ?_, ?_, ?_, ?_⟩
  · exact unitsFrom_eq hsplits (by rw [hbody, List.drop_zero])
  · rw [hshown, List.length_take]
    omega
  · rw [heq, items_append, items_asciiPieces]
  · intro u hu
    rw [heq, unitsFrom_eq hout (by rw [List.drop_zero]), List.mem_map] at hu
    obtain ⟨p, hp, rfl⟩ := hu
    exact hclean p hp
  · intro limit hlimit
    rw [heq] at hlimit ⊢
    exact sanitizeServerErrorBody_of_clean hout hclean hlimit

end DispatcharrPvr
