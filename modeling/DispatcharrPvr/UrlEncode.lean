import DispatcharrPvr.Lib.Percent
import DispatcharrPvr.SeriesRuleServer

/-!
# UrlEncode

Query values as the source writes them (`UrlEncode`), and the query of a series
rule delete in its text (`BuildSeriesRuleDeleteQuery`): what is read back from
it is the parameters of `buildSeriesRuleDeleteQuery`.
-/

namespace DispatcharrPvr

open Percent

/-! ## UrlEncode -/

/-- `unreserved`: the bytes that stay. -/
def isUnreserved (c : UInt8) : Bool :=
  (65 ≤ c ∧ c ≤ 90) ∨ (97 ≤ c ∧ c ≤ 122) ∨ (48 ≤ c ∧ c ≤ 57) ∨ c = 45 ∨ c = 46 ∨ c = 95 ∨ c = 126

/-- `kHex`. -/
def kHex : ByteString := ascii "0123456789ABCDEF"

/-- `UrlEncode`. -/
def urlEncode (value : ByteString) : ByteString :=
  value.flatMap fun c =>
    if isUnreserved c then [c]
    else [37, kHex.getD (c >>> 4).toNat 0, kHex.getD (c &&& 0x0F).toNat 0]

/-- The reserved characters of a URL. -/
def reserved : ByteString := ascii ":/?#[]@!$&'()*+,;="

theorem urlEncode_eq (value : ByteString) : urlEncode value = encode isUnreserved value := by
  have hdigits : ∀ c : Fin 256, kHex.getD (UInt8.ofNat c.val >>> 4).toNat 0 =
        hexDigit ((UInt8.ofNat c.val).toNat / 16) ∧
      kHex.getD (UInt8.ofNat c.val &&& 0x0F).toNat 0 =
        hexDigit ((UInt8.ofNat c.val).toNat % 16) := by decide +kernel
  refine List.flatMap_congr ?_
  intro c _
  obtain ⟨hhigh, hlow⟩ := hdigits ⟨c.toNat, c.toNat_lt⟩
  rw [UInt8.ofNat_toNat] at hhigh hlow
  rw [encodeByte, ← hhigh, ← hlow]

theorem decode_urlEncode (value : ByteString) : decode (urlEncode value) = value := by
  rw [urlEncode_eq, decode_encode rfl]

theorem mem_urlEncode {value : ByteString} {b : UInt8} (h : b ∈ urlEncode value) :
    isUnreserved b = true ∨ b = 37 := by
  rw [urlEncode_eq] at h
  have hhex : ∀ n : Fin 16, isUnreserved (hexDigit n.val) = true := by decide
  obtain hkeep | hpercent | ⟨n, hn, rfl⟩ := mem_encode h
  · exact .inl hkeep
  · exact .inr hpercent
  · exact .inl (hhex ⟨n, hn⟩)

theorem notMem_urlEncode {value : ByteString} : ∀ b ∈ reserved, b ∉ urlEncode value := by
  have hall : ∀ b ∈ reserved, isUnreserved b = false ∧ b ≠ 37 := by decide +kernel
  intro b hb hmem
  obtain ⟨hkept, hpercent⟩ := hall b hb
  obtain hkeep | heq := mem_urlEncode hmem
  · rw [hkept] at hkeep
    exact Bool.false_ne_true hkeep
  · exact hpercent heq

/-! ## the query of a delete -/

/-- `BuildSeriesRuleDeleteQuery`, the text. -/
def buildSeriesRuleDeleteQueryText (title tvgId : ByteString) (epgSourceId : Int) : ByteString :=
  let query := ascii "?title=" ++ urlEncode title
  let query := if tvgId.isEmpty then query else query ++ (ascii "&tvg_id=" ++ urlEncode tvgId)
  if epgSourceId > 0 then query ++ (ascii "&epg_source_id=" ++ toByteString epgSourceId) else query

/-- The parameters of a delete, under the names the server knows them by. -/
def SeriesRuleDeleteQuery.parameters (query : SeriesRuleDeleteQuery) :
    List (ByteString × ByteString) :=
  (ascii "title", query.title) :: (query.tvgId.map (ascii "tvg_id", ·)).toList ++
    (query.epgSourceId.map fun id => (ascii "epg_source_id", toByteString id)).toList

/-- What a server reads a value as. -/
inductive ValueReading
  /-- Percent-decoding. -/
  | plain
  /-- The decoding of forms, where `+` is a space. -/
  | form

/-- The decoding of a value. -/
def ValueReading.decode (reading : ValueReading) (value : ByteString) : ByteString :=
  match reading with
  | plain => Percent.decode value
  | form => Percent.decode (value.map fun b => if b = 43 then 32 else b)

/-- The parameters a server reads from a query behind its `?`. -/
def readQuery (reading : ValueReading) : ByteString → List (ByteString × ByteString)
  | [] => []
  | mark :: query =>
      if mark = 63 then
        (parseQuery query).map fun pair => (reading.decode pair.1, reading.decode pair.2)
      else []

theorem ValueReading.decode_urlEncode (reading : ValueReading) (value : ByteString) :
    reading.decode (urlEncode value) = value := by
  cases reading with
  | plain => exact DispatcharrPvr.decode_urlEncode value
  | form =>
      have hplus : (urlEncode value).map (fun b => if b = 43 then 32 else b) = urlEncode value := by
        refine (List.map_congr_left ?_).trans (List.map_id' _)
        intro b hb
        rw [if_neg]
        rintro rfl
        exact notMem_urlEncode 43 (by decide) hb
      rw [ValueReading.decode, hplus, DispatcharrPvr.decode_urlEncode]

/-- Digits are written as they are. -/
theorem urlEncode_toByteString {n : Int} (h : 0 < n) :
    urlEncode (toByteString n) = toByteString n := by
  obtain ⟨n, rfl⟩ := Int.eq_ofNat_of_zero_le (Int.le_of_lt h)
  have hkeep : ∀ b ∈ toByteString (n : Int), isUnreserved b = true := by
    intro b hb
    rw [toByteString_natCast] at hb
    have hdigit := List.all_eq_true.mp (Decimal.digits_spec n).1 b hb
    simp only [Decimal.isDigit, Bool.and_eq_true, decide_eq_true_eq] at hdigit
    exact decide_eq_true (.inr (.inr (.inl hdigit)))
  rw [urlEncode, List.flatMap_congr (g := fun b => [b]) fun b hb => if_pos (hkeep b hb),
    List.flatMap_singleton']

/-- The text is the parameters, the values encoded. -/
theorem buildSeriesRuleDeleteQueryText_eq (title tvgId : ByteString) (epgSourceId : Int) :
    buildSeriesRuleDeleteQueryText title tvgId epgSourceId = 63 :: queryText
      ((buildSeriesRuleDeleteQuery title tvgId epgSourceId).parameters.map fun pair =>
        (pair.1, urlEncode pair.2)) := by
  unfold buildSeriesRuleDeleteQueryText buildSeriesRuleDeleteQuery nonEmpty positive
    SeriesRuleDeleteQuery.parameters queryText
  by_cases htvg : tvgId.isEmpty = true
  · by_cases hid : epgSourceId > 0
    · simp [htvg, hid, urlEncode_toByteString hid, List.intercalate, ascii]
    · simp [htvg, hid, List.intercalate, ascii]
  · by_cases hid : epgSourceId > 0
    · simp [htvg, hid, urlEncode_toByteString hid, List.intercalate, ascii]
    · simp [htvg, hid, List.intercalate, ascii]

/-- The names are literals without separators. -/
theorem name_of_mem_parameters {query : SeriesRuleDeleteQuery} {pair : ByteString × ByteString}
    (h : pair ∈ query.parameters) : 38 ∉ pair.1 ∧ 61 ∉ pair.1 ∧
      ∀ reading : ValueReading, reading.decode pair.1 = pair.1 := by
  have hnames : pair.1 = ascii "title" ∨ pair.1 = ascii "tvg_id" ∨
      pair.1 = ascii "epg_source_id" := by
    simp only [SeriesRuleDeleteQuery.parameters, List.mem_append, List.mem_cons,
      Option.mem_toList, Option.map_eq_some_iff] at h
    obtain (rfl | ⟨_, _, rfl⟩) | ⟨_, _, rfl⟩ := h
    · exact .inl rfl
    · exact .inr (.inl rfl)
    · exact .inr (.inr rfl)
  obtain hname | hname | hname := hnames
  all_goals
    rw [hname]
    refine ⟨by decide, by decide, ?_⟩
    intro reading
    cases reading <;> rfl

/-- Encoding can be undone and writes no reserved character, and the query of a
delete is read back as the title, the tvg id if there is one and the source if
there is one, and nothing else. -/
theorem urlEncode_roundtrip :
    (∀ value, decode (urlEncode value) = value) ∧
    (∀ value, ∀ b ∈ urlEncode value, isUnreserved b = true ∨ b = 37) ∧
    (∀ value, ∀ b ∈ reserved, b ∉ urlEncode value) ∧
    ∀ (reading : ValueReading) (title tvgId : ByteString) (epgSourceId : Int),
      readQuery reading (buildSeriesRuleDeleteQueryText title tvgId epgSourceId) =
        [(ascii "title", title)] ++
          (if tvgId = [] then [] else [(ascii "tvg_id", tvgId)]) ++
          (if epgSourceId > 0 then [(ascii "epg_source_id", toByteString epgSourceId)] else []) ∧
      (epgSourceId > 0 → Decimal.value (toByteString epgSourceId) = epgSourceId) := by
  refine ⟨decode_urlEncode, fun value b => mem_urlEncode, fun value => notMem_urlEncode, ?_⟩
  intro reading title tvgId epgSourceId
  have hparameters : (buildSeriesRuleDeleteQuery title tvgId epgSourceId).parameters =
      [(ascii "title", title)] ++ (if tvgId = [] then [] else [(ascii "tvg_id", tvgId)]) ++
        (if epgSourceId > 0 then [(ascii "epg_source_id", toByteString epgSourceId)] else []) := by
    unfold buildSeriesRuleDeleteQuery nonEmpty positive SeriesRuleDeleteQuery.parameters
    simp only [List.isEmpty_iff]
    split <;> split <;> rfl
  rw [← hparameters]
  constructor
  · have hnames : ∀ pair ∈ (buildSeriesRuleDeleteQuery title tvgId epgSourceId).parameters.map
        (fun pair => (pair.1, urlEncode pair.2)), 38 ∉ pair.1 ∧ 61 ∉ pair.1 := by
      intro pair hpair
      obtain ⟨param, hparam, rfl⟩ := List.mem_map.mp hpair
      obtain ⟨hamp, heq, -⟩ := name_of_mem_parameters hparam
      exact ⟨hamp, heq⟩
    have hvalues : ∀ pair ∈ (buildSeriesRuleDeleteQuery title tvgId epgSourceId).parameters.map
        (fun pair => (pair.1, urlEncode pair.2)), 38 ∉ pair.2 := by
      intro pair hpair
      obtain ⟨param, -, rfl⟩ := List.mem_map.mp hpair
      exact notMem_urlEncode 38 (by decide)
    rw [buildSeriesRuleDeleteQueryText_eq, readQuery, if_pos rfl,
      parseQuery_queryText (by simp [SeriesRuleDeleteQuery.parameters]) hnames hvalues,
      List.map_map]
    refine (List.map_congr_left ?_).trans (List.map_id' _)
    intro pair hpair
    obtain ⟨-, -, hname⟩ := name_of_mem_parameters hpair
    exact Prod.ext (hname reading) (reading.decode_urlEncode pair.2)
  · intro hid
    obtain ⟨n, rfl⟩ := Int.eq_ofNat_of_zero_le (Int.le_of_lt hid)
    rw [toByteString_natCast, (Decimal.digits_spec n).2]

end DispatcharrPvr
