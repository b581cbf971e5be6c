import DispatcharrPvr.TimeshiftBuffer.FileServer
import Mathlib.Data.List.TakeWhile

/-!
# TimeshiftBuffer.RangeResponses

How a `GET` with a range is answered (`_parse_range`, `_plan_range_response` and
the body of `do_GET`): the head of the answer, and the chunks that are read from
the file and written one after the other.

A write may raise part of the way; the clock and the file are read anew for each
chunk.
-/

namespace DispatcharrPvr

namespace TimeshiftBuffer

namespace FileServer

open Cut

/-! ## the answer -/

/-- `_plan_range_response`'s tuple. -/
structure RangePlan where
  status : Nat
  seekStart : Nat
  readLength : Option Nat
  contentRange : Option Text
deriving DecidableEq, Repr

/-- `_plan_range_response`. -/
def planRangeResponse (rangeResult : Option (Nat × Nat)) (fileSize : Nat) : RangePlan :=
  match rangeResult with
  | none => ⟨200, 0, none, none⟩
  | some (start, stop) =>
      ⟨206, start, some (stop - start + 1), some s!"bytes {start}-{stop}/{fileSize}".toList⟩

/-- `_SEND_CHUNK_BYTES`. -/
def sendChunkBytes : Nat := 256 * 1024

/-- What the sending of a chunk meets. -/
structure SendingTurn where
  /-- `time.monotonic()`. -/
  now : Rat
  /-- The file, as it is read. -/
  seen : List UInt8
  /-- The bytes that a write got through before it raised. -/
  raisedAfter : Option Nat := none

/-- What the sending of a body meets. -/
structure Sending where
  startedAt : Rat
  turn : Nat → SendingTurn

/-- `deadline`, by `timeout` and `body_min_rate_bytes_per_second`. -/
def Sending.deadline (sending : Sending) (remaining : Nat) : Rat :=
  sending.startedAt + 60 + remaining / (32 * 1024)

/-- What is sent of a body. -/
structure SentBody where
  bytes : List UInt8
  closeConnection : Bool
deriving DecidableEq, Repr

/-- The loop of `do_GET`, at its `turn`-th chunk. -/
def sendBody (sending : Sending) (deadline : Rat) (turn position remaining : Nat) : SentBody :=
  if _hmore : 0 < remaining then
    let met := sending.turn turn
    if deadline - met.now ≤ 0 then ⟨[], true⟩
    else
      let chunk := (met.seen.drop position).take (min sendChunkBytes remaining)
      if _hchunk : chunk = [] then ⟨[], false⟩
      else
        match met.raisedAfter with
        | some written => ⟨chunk.take written, true⟩
        | none =>
            let rest := sendBody sending deadline (turn + 1) (position + chunk.length)
              (remaining - chunk.length)
            ⟨chunk ++ rest.bytes, rest.closeConnection⟩
  else ⟨[], false⟩
termination_by remaining
decreasing_by
  exact Nat.sub_lt _hmore (List.length_pos_of_ne_nil _hchunk)

/-- An answer, as far as the range decides it. -/
structure RangeResponse where
  status : Nat
  contentLength : Option Nat
  contentRange : Option Text
  sent : SentBody
deriving DecidableEq, Repr

/-- `do_GET` from its plan on. -/
def serveBody (plan : RangePlan) (fileSize : Nat) (sending : Sending) : RangeResponse :=
  let remaining := plan.readLength.getD (fileSize - plan.seekStart)
  { status := plan.status
    contentLength := some remaining
    contentRange := plan.contentRange
    sent := sendBody sending (sending.deadline remaining) 0 plan.seekStart remaining }

/-- `do_GET` of an opened file of `fileSize` bytes. -/
def rangeResponse (rangeHeader : Option Text) (fileSize : Nat) (sending : Sending) :
    RangeResponse :=
  match parseRange rangeHeader fileSize with
  | .unsatisfiable =>
      { status := 416
        contentLength := none
        contentRange := some s!"bytes */{fileSize}".toList
        sent := ⟨[], false⟩ }
  | .whole => serveBody (planRangeResponse none fileSize) fileSize sending
  | .part start stop =>
      serveBody (planRangeResponse (some (start, stop)) fileSize) fileSize sending

/-! ## the body -/

section Body

variable {sending : Sending} {deadline : Rat} {content : List UInt8}

/-- What is read of a file that was cut short or has grown begins what is to be
sent. -/
theorem chunk_prefix {seen : List UInt8} {position remaining most : Nat}
    (hseen : seen <+: content ∨ content <+: seen) (hinside : position + remaining ≤ content.length)
    (hmost : most ≤ remaining) :
    (seen.drop position).take most <+: (content.drop position).take remaining := by
  rw [List.prefix_take_iff]
  refine ⟨?_, Nat.le_trans (List.length_take_le _ _) hmost⟩
  rcases hseen with hshort | ⟨more, rfl⟩
  · exact (List.take_prefix _ _).trans (hshort.drop position)
  · rw [List.drop_append_of_le_length (by omega), List.take_append_of_le_length (by simp; omega)]
    exact List.take_prefix _ _

/-- What is read of a file that was not cut short is what is to be sent. -/
theorem chunk_eq {seen : List UInt8} {position most : Nat} (hseen : content <+: seen)
    (hinside : position + most ≤ content.length) :
    (seen.drop position).take most = (content.drop position).take most := by
  obtain ⟨more, rfl⟩ := hseen
  rw [List.drop_append_of_le_length (by omega), List.take_append_of_le_length (by simp; omega)]

/-- A chunk and what comes after it. -/
theorem take_drop_of_prefix {position remaining : Nat} {chunk rest : List UInt8}
    (hchunk : chunk <+: (content.drop position).take remaining)
    (hrest : rest <+: (content.drop (position + chunk.length)).take (remaining - chunk.length)) :
    chunk ++ rest <+: (content.drop position).take remaining := by
  obtain ⟨after, hafter⟩ := hchunk
  have hdrop : (content.drop (position + chunk.length)).take (remaining - chunk.length) = after := by
    rw [← List.drop_drop, ← List.drop_take, ← hafter, List.drop_left]
  rw [hdrop] at hrest
  rw [← hafter]
  exact (List.prefix_append_right_inj chunk).mpr hrest

/-- **What is sent begins what is to be sent**, whenever the sending ends. -/
theorem sendBody_prefix (hseen : ∀ k, (sending.turn k).seen <+: content ∨
      content <+: (sending.turn k).seen) {turn position remaining : Nat}
    (hinside : position + remaining ≤ content.length) :
    (sendBody sending deadline turn position remaining).bytes <+:
      (content.drop position).take remaining := by
  induction remaining using Nat.strongRecOn generalizing turn position with
  | ind remaining ih =>
      have hchunk := chunk_prefix (hseen turn) hinside (Nat.min_le_right sendChunkBytes remaining)
      rw [sendBody]
      split
      · next hmore =>
          dsimp only
          split
          · exact List.nil_prefix
          split
          · exact List.nil_prefix
          · next hne =>
              have hlength := hchunk.length_le.trans (List.length_take_le _ _)
              have hless := Nat.sub_lt hmore (List.length_pos_of_ne_nil hne)
              split
              · exact (List.take_prefix _ _).trans hchunk
              · exact take_drop_of_prefix hchunk (ih _ hless (by omega))
      · exact List.nil_prefix

/-- Every turn is in time, its write goes through, and the file is no shorter. -/
structure Undisturbed (sending : Sending) (deadline : Rat) (content : List UInt8) : Prop where
  inTime : ∀ k, (sending.turn k).now < deadline
  written : ∀ k, (sending.turn k).raisedAfter = none
  seen : ∀ k, content <+: (sending.turn k).seen

/-- **What is sent is what is to be sent**, when nothing ends the sending early. -/
theorem sendBody_eq (h : Undisturbed sending deadline content) {turn position remaining : Nat}
    (hinside : position + remaining ≤ content.length) :
    sendBody sending deadline turn position remaining =
      ⟨(content.drop position).take remaining, false⟩ := by
  induction remaining using Nat.strongRecOn generalizing turn position with
  | ind remaining ih =>
      rw [sendBody]
      split
      · next hmore =>
          have hintime : ¬ deadline - (sending.turn turn).now ≤ 0 := by
            have hlt := h.inTime turn
            grind
          have hmost : 0 < min sendChunkBytes remaining ∧
              min sendChunkBytes remaining ≤ remaining :=
            ⟨Nat.lt_min.mpr ⟨by decide, hmore⟩, Nat.min_le_right _ _⟩
          generalize min sendChunkBytes remaining = most at hmost ⊢
          have hlength : ((content.drop position).take most).length = most := by
            rw [List.length_take, List.length_drop]
            omega
          have hne : (content.drop position).take most ≠ [] := by
            rw [← List.length_pos_iff, hlength]
            exact hmost.1
          dsimp only
          rw [if_neg hintime, chunk_eq (h.seen turn) (by omega), h.written turn, dif_neg hne]
          dsimp only
          rw [hlength, ih _ (by omega) (by omega), ← List.drop_drop, ← List.take_add]
          congr 2
          omega
      · next hnone =>
          obtain rfl : remaining = 0 := by omega
          rfl

end Body

/-! ## the text of a range -/

/-- Decimal digits, no more than `int` takes. -/
structure IsDecimal (text : Text) : Prop where
  some : text ≠ []
  digits : ∀ d ∈ text, d.isDigit = true
  few : text.length ≤ maxStrDigits

/-- The number that they write. -/
def number (digits : Text) : Nat := Nat.ofDigitChars 10 digits 0

theorem number_zeros (n : Nat) : number (List.replicate n '0') = 0 := by
  rw [number, Nat.ofDigitChars_replicate_zero, Nat.mul_zero]

theorem dropWhile_eq_self {p : Char → Bool} {text : Text} (h : ∀ c ∈ text, p c = false) :
    text.dropWhile p = text := by
  cases text with
  | nil => rfl
  | cons c rest => rw [List.dropWhile_cons_of_neg (by simp [h c])]

/-- What a text without spaces is stripped to. -/
theorem strip_eq_self {text : Text} (h : ∀ c ∈ text, isSpace c = false) : strip text = text := by
  rw [strip, dropWhile_eq_self h, dropWhile_eq_self (by simpa using h), List.reverse_reverse]

theorem stripInt_eq_self {text : Text} (h : ∀ c ∈ text, isSpace c = false) :
    stripInt text = text := by
  have hnone : ∀ c ∈ text, isIntSpace c = false := fun c hmem => by
    rw [isIntSpace, h c hmem, Bool.false_and]
  rw [stripInt, dropWhile_eq_self hnone, dropWhile_eq_self (by simpa using hnone),
    List.reverse_reverse]

theorem isSpace_of_isDigit {c : Char} (h : c.isDigit = true) : isSpace c = false := by
  simp only [Char.isDigit, Bool.and_eq_true, decide_eq_true_eq, ge_iff_le,
    UInt32.le_iff_toNat_le] at h
  simp only [isSpace, Bool.or_eq_false_iff, Bool.and_eq_false_iff, decide_eq_false_iff_not,
    beq_eq_false_iff_ne, ne_eq, UInt32.le_iff_toNat_le, ← UInt32.toNat_inj]
  simp at h ⊢
  omega

theorem decimalDigits_eq {digits : Text} (h : ∀ d ∈ digits, d.isDigit = true) (value : Nat) :
    decimalDigits value digits = some (Nat.ofDigitChars 10 digits value) := by
  induction digits generalizing value with
  | nil => rfl
  | cons d digits ih =>
      have hd : d.isDigit = true := h d (by simp)
      have hne : d ≠ '_' := by
        rintro rfl
        contradiction
      rw [Nat.ofDigitChars_cons, ← ih (fun d hmem => h d (by simp [hmem])), decimalDigits, if_pos hd]
      grind

theorem parseInt_of_digits {text : Text} (h : ∀ d ∈ text, d.isDigit = true) :
    parseInt text = (parseDigits text).map fun n => (n : Int) := by
  unfold parseInt
  rw [stripInt_eq_self fun c hmem => isSpace_of_isDigit (h c hmem)]
  split
  · next rest => exact absurd (h '-' (by simp)) (by decide)
  · next rest => exact absurd (h '+' (by simp)) (by decide)
  · rfl

theorem parseInt_of_decimal {text : Text} (h : IsDecimal text) :
    parseInt text = some (number text : Int) := by
  have hparse : parseDigits text = some (number text) := by
    have hfilter : text.filter Char.isDigit = text := List.filter_eq_self.mpr h.digits
    unfold parseDigits
    rw [hfilter, if_neg (Nat.not_lt.mpr h.few)]
    cases text with
    | nil => exact absurd rfl h.some
    | cons d digits =>
        have hd : d.isDigit = true := h.digits d (by simp)
        dsimp only
        rw [if_pos hd, decimalDigits_eq fun d hmem => h.digits d (by simp [hmem])]
        simp [number, Nat.ofDigitChars_cons]
  rw [parseInt_of_digits h.digits, hparse]
  rfl

/-- More digits than `int` takes are no number. -/
theorem parseInt_of_many {text : Text} (h : ∀ d ∈ text, d.isDigit = true)
    (hmany : maxStrDigits < text.length) : parseInt text = none := by
  have hparse : parseDigits text = none := by
    have hfilter : text.filter Char.isDigit = text := List.filter_eq_self.mpr h
    unfold parseDigits
    rw [hfilter, if_pos hmany]
  rw [parseInt_of_digits h, hparse]
  rfl

/-- A range of bytes, its numbers as text. -/
inductive RangeSpec where
  | closed (first last : Text)
  | openEnded (first : Text)
  | suffix (length : Text)
deriving DecidableEq, Repr

namespace RangeSpec

/-- What it is written as, behind `bytes=`. -/
def text : RangeSpec → Text
  | closed first last => first ++ '-' :: last
  | openEnded first => first ++ ['-']
  | suffix length => '-' :: length

def header (range : RangeSpec) : Text := "bytes=".toList ++ range.text

theorem header_eq (range : RangeSpec) : range.header = "bytes=".toList ++ range.text := rfl

/-- Its numbers are decimal, and a suffix is of some bytes. -/
def Decimal : RangeSpec → Prop
  | closed first last => IsDecimal first ∧ IsDecimal last
  | openEnded first => IsDecimal first
  | suffix length => IsDecimal length ∧ 0 < number length

/-- It asks for the byte at `i` of a file. -/
def Asks (range : RangeSpec) (fileSize i : Nat) : Prop :=
  i < fileSize ∧
    match range with
    | closed first last => number first ≤ i ∧ i ≤ number last
    | openEnded first => number first ≤ i
    | suffix length => fileSize ≤ i + number length

/-- Its ends in a file, as they are computed. -/
def ends (range : RangeSpec) (fileSize : Nat) : Int × Int :=
  match range with
  | closed first last => (number first, number last)
  | openEnded first => (number first, fileSize - 1)
  | suffix length => (max 0 (fileSize - number length), fileSize - 1)

theorem text_digits {range : RangeSpec} (h : range.Decimal) {c : Char} (hmem : c ∈ range.text) :
    c.isDigit = true ∨ c = '-' := by
  cases range with
  | closed first last =>
      simp only [text, List.mem_append, List.mem_cons] at hmem
      rcases hmem with hfirst | rfl | hlast
      · exact .inl (h.1.digits c hfirst)
      · exact .inr rfl
      · exact .inl (h.2.digits c hlast)
  | openEnded first =>
      simp only [text, List.mem_append, List.mem_singleton] at hmem
      rcases hmem with hfirst | rfl
      · exact .inl (h.digits c hfirst)
      · exact .inr rfl
  | suffix length =>
      simp only [text, List.mem_cons] at hmem
      rcases hmem with rfl | hlength
      · exact .inr rfl
      · exact .inl (h.1.digits c hlength)

end RangeSpec

theorem cutFirst_dash {first rest : Text} (h : ∀ d ∈ first, d.isDigit = true) :
    cutFirst ['-'] (first ++ '-' :: rest) = some (first, rest) := by
  rw [cutFirst_singleton_eq_some_iff]
  exact ⟨rfl, fun hmem => absurd (h '-' hmem) (by decide)⟩

theorem rangeEnds_text {range : RangeSpec} (h : range.Decimal) (fileSize : Nat) :
    rangeEnds fileSize range.text = some (range.ends fileSize) := by
  unfold rangeEnds
  cases range with
  | closed first last =>
      obtain ⟨hfirst, hlast⟩ := h
      rw [RangeSpec.text, cutFirst_dash hfirst.digits]
      have hstart := parseInt_of_decimal hfirst
      have hstop := parseInt_of_decimal hlast
      obtain ⟨d, digits, rfl⟩ := List.exists_cons_of_ne_nil hfirst.some
      obtain ⟨e, digits', rfl⟩ := List.exists_cons_of_ne_nil hlast.some
      dsimp only
      rw [hstart, hstop]
      rfl
  | openEnded first =>
      rw [RangeSpec.text, cutFirst_dash h.digits]
      have hstart := parseInt_of_decimal h
      obtain ⟨d, digits, rfl⟩ := List.exists_cons_of_ne_nil h.some
      dsimp only
      rw [hstart]
      rfl
  | suffix length =>
      obtain ⟨hlength, hpos⟩ := h
      have hcut : cutFirst ['-'] ([] ++ '-' :: length) = some ([], length) :=
        cutFirst_dash (by simp)
      rw [RangeSpec.text, ← List.nil_append ('-' :: length), hcut]
      dsimp only
      rw [parseInt_of_decimal hlength, Option.bind_some, if_neg (by omega)]
      rfl

/-- What `_parse_range` makes of the ends of a range. -/
def Range.ofEnds (fileSize : Nat) : Option (Int × Int) → Range
  | none => .whole
  | some (start, stop) =>
      if start < 0 ∨ fileSize ≤ start ∨ stop < start then .unsatisfiable
      else .part start.toNat (min stop (fileSize - 1)).toNat

/-- **Spec of `_parse_range`** on digits and dashes. -/
theorem parseRange_text {text : Text} (h : ∀ c ∈ text, c.isDigit = true ∨ c = '-')
    (fileSize : Nat) :
    parseRange (some ("bytes=".toList ++ text)) fileSize =
      .ofEnds fileSize (rangeEnds fileSize text) := by
  have hcomma : text.takeWhile (· ≠ ',') = text := by
    rw [List.takeWhile_eq_self_iff]
    intro c hmem
    rcases h c hmem with hdigit | rfl
    · rw [decide_eq_true_eq]
      rintro rfl
      contradiction
    · rfl
  have hstrip : strip text = text := by
    refine strip_eq_self fun c hmem => ?_
    rcases h c hmem with hdigit | rfl
    · exact isSpace_of_isDigit hdigit
    · rfl
  have hspec : strip ((("bytes=".toList ++ text).drop 6).takeWhile (· ≠ ',')) = text := by
    show strip (text.takeWhile (· ≠ ',')) = text
    rw [hcomma, hstrip]
  have hbytes : "bytes=".toList.isPrefixOf ("bytes=".toList ++ text) = true := by
    rw [List.isPrefixOf_iff_prefix]
    exact List.prefix_append _ _
  unfold parseRange
  dsimp only
  rw [if_pos hbytes]
  exact congrArg (fun spec => Range.ofEnds fileSize (rangeEnds fileSize spec)) hspec

/-- A range that begins at such a number is none that can be read. -/
theorem parseRange_openEnded_of_many {first : Text} (h : ∀ d ∈ first, d.isDigit = true)
    (hmany : maxStrDigits < first.length) (fileSize : Nat) :
    parseRange (some (RangeSpec.openEnded first).header) fileSize = .whole := by
  have htext : ∀ c ∈ first ++ ['-'], c.isDigit = true ∨ c = '-' := by
    intro c hmem
    rcases List.mem_append.mp hmem with hdigit | hdash
    · exact .inl (h c hdigit)
    · exact .inr (List.mem_singleton.mp hdash)
  have hends : rangeEnds fileSize (first ++ ['-']) = none := by
    have hparse := parseInt_of_many h hmany
    rw [rangeEnds, cutFirst_dash h]
    cases first with
    | nil => exact absurd hmany (Nat.not_lt_zero _)
    | cons d digits =>
        dsimp only
        rw [hparse]
        rfl
  rw [RangeSpec.header_eq, RangeSpec.text, parseRange_text htext, hends, Range.ofEnds]

/-- A range is answered with exactly the bytes of the file that it asks for, and
turned down when there are none. -/
theorem parseRange_asks {range : RangeSpec} (h : range.Decimal) (fileSize : Nat) :
    (∃ start stop, parseRange (some range.header) fileSize = .part start stop ∧
      start ≤ stop ∧ ∀ i, start ≤ i ∧ i ≤ stop ↔ range.Asks fileSize i) ∨
    (parseRange (some range.header) fileSize = .unsatisfiable ∧
      ∀ i, ¬ range.Asks fileSize i) := by
  rw [RangeSpec.header_eq, parseRange_text fun c => RangeSpec.text_digits h, rangeEnds_text h,
    Range.ofEnds]
  split
  · next hempty =>
      refine .inr ⟨rfl, fun i hasks => ?_⟩
      obtain ⟨hinside, hasks⟩ := hasks
      cases range <;> simp only [RangeSpec.ends] at hempty hasks <;> omega
  · next hsome =>
      refine .inl ⟨_, _, rfl, ?_, fun i => ?_⟩
      · cases range <;> simp only [RangeSpec.ends] at hsome ⊢ <;> omega
      · cases range <;> simp only [RangeSpec.ends, RangeSpec.Asks] at hsome ⊢ <;> omega

/-! ## the response -/

/-- The bytes of a file that a range is answered with. -/
def Range.bytes (content : List UInt8) : Range → List UInt8
  | .whole => content
  | .unsatisfiable => []
  | .part start stop => (content.drop start).take (stop - start + 1)

theorem parseRange_part {rangeHeader : Option Text} {fileSize start stop : Nat}
    (h : parseRange rangeHeader fileSize = .part start stop) : start ≤ stop ∧ stop < fileSize := by
  unfold parseRange at h
  split at h
  · contradiction
  · split at h
    · split at h
      · contradiction
      · split at h
        · contradiction
        · obtain ⟨rfl, rfl⟩ := Range.part.inj h
          omega
    · contradiction

/-- What is sent of a body: its beginning if the file is only cut short or grows
meanwhile, all of it if nothing ends the sending early. -/
structure Sends (sending : Sending) (content body : List UInt8) (sent : SentBody) : Prop where
  begins : (∀ k, (sending.turn k).seen <+: content ∨ content <+: (sending.turn k).seen) →
    sent.bytes <+: body
  whole : Undisturbed sending (sending.deadline body.length) content → sent.bytes = body

theorem sends_serveBody (plan : RangePlan) (content : List UInt8) (sending : Sending)
    {remaining : Nat} (hremaining : plan.readLength.getD (content.length - plan.seekStart) = remaining)
    (hinside : plan.seekStart + remaining ≤ content.length) :
    Sends sending content ((content.drop plan.seekStart).take remaining)
      (serveBody plan content.length sending).sent := by
  have hlength : ((content.drop plan.seekStart).take remaining).length = remaining := by
    rw [List.length_take, List.length_drop]
    omega
  rw [serveBody, hremaining]
  constructor
  · exact fun hseen => sendBody_prefix hseen hinside
  · rw [hlength]
    exact fun hundisturbed => by rw [sendBody_eq hundisturbed hinside]

/-- **Spec of a response**: what is sent are the bytes of the range. -/
theorem sends_rangeResponse (rangeHeader : Option Text) (content : List UInt8)
    (sending : Sending) :
    Sends sending content ((parseRange rangeHeader content.length).bytes content)
      (rangeResponse rangeHeader content.length sending).sent := by
  unfold rangeResponse
  cases hrange : parseRange rangeHeader content.length with
  | whole =>
      have hsends := sends_serveBody (planRangeResponse none content.length) content sending rfl
        (by simp [planRangeResponse])
      simpa [planRangeResponse, Range.bytes] using hsends
  | unsatisfiable => exact ⟨fun _ => List.nil_prefix, fun _ => rfl⟩
  | part start stop =>
      obtain ⟨hle, hlt⟩ := parseRange_part hrange
      exact sends_serveBody (planRangeResponse (some (start, stop)) content.length) content sending
        rfl (by simp only [planRangeResponse]; omega)

/-- The file server's answer carries the bytes of the range. -/
theorem body_serveRange_eq (contentType : Text) (content : List UInt8) (range : Range) :
    (serveRange contentType content range).body = range.bytes content := by
  cases range <;> rfl

/-- A whole file. -/
def RangeResponse.IsWhole (response : RangeResponse) (fileSize : Nat) : Prop :=
  response.status = 200 ∧ response.contentLength = some fileSize ∧ response.contentRange = none

/-- A refusal, without a body. -/
def RangeResponse.IsUnsatisfiable (response : RangeResponse) (fileSize : Nat) : Prop :=
  response.status = 416 ∧ response.contentLength = none ∧
    response.contentRange = some s!"bytes */{fileSize}".toList ∧ response.sent.bytes = []

/-- The part of a file from `start` to `stop`. -/
def RangeResponse.IsPart (response : RangeResponse) (fileSize start stop : Nat) : Prop :=
  response.status = 206 ∧ start ≤ stop ∧ stop < fileSize ∧
    response.contentLength = some (stop - start + 1) ∧
    response.contentRange = some s!"bytes {start}-{stop}/{fileSize}".toList

/-- The three kinds of a response. -/
theorem rangeResponse_kind (rangeHeader : Option Text) (content : List UInt8)
    (sending : Sending) :
    let response := rangeResponse rangeHeader content.length sending
    match parseRange rangeHeader content.length with
    | .whole => response.IsWhole content.length
    | .unsatisfiable => response.IsUnsatisfiable content.length
    | .part start stop => response.IsPart content.length start stop := by
  unfold rangeResponse
  cases hrange : parseRange rangeHeader content.length with
  | whole => exact ⟨rfl, rfl, rfl⟩
  | unsatisfiable => exact ⟨rfl, rfl, rfl, rfl⟩
  | part start stop =>
      obtain ⟨hle, hlt⟩ := parseRange_part hrange
      exact ⟨rfl, hle, hlt, rfl, rfl⟩

/-- **Range responses**: for any header and any file, a response is the whole
file, a refusal or a part, and sends the bytes it announces; a range of bytes
gets exactly the part of the file it asks for, and a refusal where that is
empty. -/
theorem range_responses (rangeHeader : Option Text) (content : List UInt8) (sending : Sending) :
    let response := rangeResponse rangeHeader content.length sending
    ((response.IsWhole content.length ∧ Sends sending content content response.sent) ∨
      response.IsUnsatisfiable content.length ∨
      ∃ start stop, response.IsPart content.length start stop ∧
        Sends sending content ((content.drop start).take (stop - start + 1)) response.sent) ∧
    ∀ range : RangeSpec, range.Decimal → rangeHeader = some range.header →
      (∃ start stop, response.IsPart content.length start stop ∧
        ∀ i, start ≤ i ∧ i ≤ stop ↔ range.Asks content.length i) ∨
      (response.IsUnsatisfiable content.length ∧ ∀ i, ¬ range.Asks content.length i) := by
  intro response
  have hkind := rangeResponse_kind rangeHeader content sending
  have hsends := sends_rangeResponse rangeHeader content sending
  constructor
  · cases hrange : parseRange rangeHeader content.length with
    | whole =>
        rw [hrange] at hkind hsends
        exact .inl ⟨hkind, hsends⟩
    | unsatisfiable =>
        rw [hrange] at hkind
        exact .inr (.inl hkind)
    | part start stop =>
        rw [hrange] at hkind hsends
        exact .inr (.inr ⟨start, stop, hkind, hsends⟩)
  · rintro range hdecimal rfl
    rcases parseRange_asks hdecimal content.length with ⟨start, stop, hrange, -, hasks⟩ |
      ⟨hrange, hnone⟩
    · rw [hrange] at hkind
      exact .inl ⟨start, stop, hkind, hasks⟩
    · rw [hrange] at hkind
      exact .inr ⟨hkind, hnone⟩

/-- The last two bytes of three. -/
theorem range_responses_suffix :
    let sending : Sending := { startedAt := 0, turn := fun _ => { now := 1, seen := [1, 2, 3] } }
    let response := rangeResponse (some "bytes=-2".toList) 3 sending
    ∃ start stop, response.IsPart 3 start stop ∧
      ∀ i, start ≤ i ∧ i ≤ stop ↔ (RangeSpec.suffix ['2']).Asks 3 i := by
  intro sending response
  have hdecimal : (RangeSpec.suffix ['2']).Decimal := by
    refine ⟨⟨by decide, fun d hmem => ?_, by decide⟩, by decide⟩
    rw [List.mem_singleton.mp hmem]
    rfl
  rcases (range_responses (some "bytes=-2".toList) [1, 2, 3] sending).2 (.suffix ['2']) hdecimal rfl
    with hpart | ⟨-, hnone⟩
  · exact hpart
  · exact absurd ⟨by decide, by decide⟩ (hnone 1)

/-- A number of more digits than `int` takes gets the whole file, and a body
that is late is cut short although the file is not. -/
theorem range_responses_not_always :
    let sending : Sending := { startedAt := 0, turn := fun _ => { now := 61, seen := [7] } }
    let range := RangeSpec.openEnded (List.replicate 4301 '0')
    (range.Asks 1 0 ∧ (rangeResponse (some range.header) 1 sending).status = 200) ∧
      (rangeResponse none 1 sending).IsWhole 1 ∧ (rangeResponse none 1 sending).sent.bytes ≠ [7] := by
  intro sending range
  have hdigits : ∀ d ∈ List.replicate 4301 '0', d.isDigit = true := by
    intro d hmem
    rw [List.eq_of_mem_replicate hmem]
    rfl
  have hmany : maxStrDigits < (List.replicate 4301 '0').length := by
    rw [List.length_replicate]
    decide
  have hwhole : parseRange (some range.header) 1 = .whole :=
    parseRange_openEnded_of_many hdigits hmany 1
  have hlate : (rangeResponse none 1 sending).sent = ⟨[], true⟩ := by
    show sendBody sending (sending.deadline 1) 0 0 1 = _
    rw [sendBody, dif_pos Nat.one_pos]
    refine if_pos ?_
    show (0 : Rat) + 60 + 1 / (32 * 1024) - 61 ≤ 0
    grind
  refine ⟨⟨⟨Nat.one_pos, ?_⟩, ?_⟩, ⟨rfl, rfl, rfl⟩, ?_⟩
  · show number (List.replicate 4301 '0') ≤ 0
    rw [number_zeros]
  · rw [rangeResponse, hwhole]
    rfl
  · rw [hlate]
    exact nofun

end FileServer

end TimeshiftBuffer

end DispatcharrPvr
