import DispatcharrPvr.RecurringRule

/-!
# M3u8SegmentParser

The playlist of a recording that is still being written
(`M3u8SegmentParser.cpp`): its segment lines with the durations before them,
its end tag, and how many of the segments just sized can be merged.

`std::stod` is a parameter, a double the rational it stands for, and `round`
what an arithmetic operation on doubles does to its exact result.
-/

namespace DispatcharrPvr

/-! ## lines -/

/-- The lines of a text, the last one being what follows the last newline. -/
def lines : ByteString → List ByteString
  | [] => [[]]
  | b :: rest =>
      if b = 10 then [] :: lines rest
      else
        match lines rest with
        | [] => [[b]]
        | line :: more => (b :: line) :: more

theorem lines_ne_nil (text : ByteString) : lines text ≠ [] := by
  cases text with
  | nil => simp [lines]
  | cons b rest =>
      rw [lines]
      split
      · simp
      · split <;> simp

/-- What follows a newline is cut into lines of its own. -/
theorem lines_append_newline (a b : ByteString) : lines (a ++ 10 :: b) = lines a ++ lines b := by
  induction a with
  | nil => rfl
  | cons c a ih =>
      rw [List.cons_append, lines, lines, ih]
      by_cases hc : c = 10
      · simp [hc]
      · simp only [if_neg hc]
        cases hlines : lines a with
        | nil => exact absurd hlines (lines_ne_nil a)
        | cons line more => rfl

/-! ## the segment entries -/

/-- A double: a finite one is the rational it stands for. -/
inductive Double where
  | finite (value : Rat)
  | infinite (negative : Bool)
  | nan
deriving DecidableEq, Repr

/-- What the standard library does with doubles: `std::stod`, `none` when it
throws, and the rounding of a result. -/
structure DoubleArithmetic where
  stod : ByteString → Option Double
  round : Rat → Rat

/-- `M3u8SegmentEntry`; the duration is finite. -/
structure M3u8SegmentEntry where
  url : ByteString
  durationSec : Rat := 0
deriving DecidableEq, Repr

/-- `kMaxSegmentDurationSec`. -/
def maxSegmentDurationSec : Rat := 86400

/-- The clamp on what `std::stod` gave. -/
def clampDurationSec : Option Double → Rat
  | some (.finite d) =>
      if d < 0 then 0 else if d > maxSegmentDurationSec then maxSegmentDurationSec else d
  | _ => 0

/-- The locals of the loop of `ParseNewM3u8SegmentEntries`. -/
structure M3u8Scan where
  pending : List M3u8SegmentEntry := []
  segmentIndex : Nat := 0
  pendingDurationSec : Rat := 0

/-- `line.pop_back()` when the line ends in a carriage return. -/
def dropCarriageReturn (line : ByteString) : ByteString :=
  if line.getLast? = some 13 then line.dropLast else line

/-- The URL of a segment line: an absolute one as it is. -/
def segmentUrl (baseDir line : ByteString) : ByteString :=
  if (ascii "http://").isPrefixOf line || (ascii "https://").isPrefixOf line then line
  else baseDir ++ line

section Parse

variable (arithmetic : DoubleArithmetic) (baseDir : ByteString)

/-- The body of the loop. -/
def M3u8Scan.next (alreadyKnownCount : Nat) (scan : M3u8Scan) (rawLine : ByteString) : M3u8Scan :=
  let line := dropCarriageReturn rawLine
  if (ascii "#EXTINF:").isPrefixOf line then
    let durStr := (line.drop 8).takeWhile (· != 44)
    { scan with pendingDurationSec := clampDurationSec (arithmetic.stod durStr) }
  else if !line.isEmpty && line.head? != some 35 then
    { pending :=
        if alreadyKnownCount ≤ scan.segmentIndex then
          scan.pending ++ [⟨segmentUrl baseDir line, scan.pendingDurationSec⟩]
        else scan.pending
      segmentIndex := scan.segmentIndex + 1
      pendingDurationSec := 0 }
  else scan

/-- `ParseNewM3u8SegmentEntries`. -/
def parseNewM3u8SegmentEntries (playlistText : ByteString) (alreadyKnownCount : Nat) :
    List M3u8SegmentEntry :=
  ((lines playlistText).foldl (M3u8Scan.next arithmetic baseDir alreadyKnownCount) {}).pending

/-- A scan that skips the known entries and one that skips none. -/
structure M3u8Scan.Skips (alreadyKnownCount : Nat) (scan whole : M3u8Scan) : Prop where
  segmentIndex_eq : scan.segmentIndex = whole.segmentIndex
  length_eq : whole.pending.length = whole.segmentIndex
  duration_eq : scan.pendingDurationSec = whole.pendingDurationSec
  pending_eq : scan.pending = whole.pending.drop alreadyKnownCount

variable {arithmetic baseDir}

theorem M3u8Scan.Skips.next {alreadyKnownCount : Nat} {scan whole : M3u8Scan}
    (h : Skips alreadyKnownCount scan whole) (line : ByteString) :
    Skips alreadyKnownCount (scan.next arithmetic baseDir alreadyKnownCount line)
      (whole.next arithmetic baseDir 0 line) := by
  obtain ⟨hindex, hlength, hduration, hpending⟩ := h
  unfold M3u8Scan.next
  by_cases hextinf : (ascii "#EXTINF:").isPrefixOf (dropCarriageReturn line) = true
  · simp only [hextinf, if_true]
    exact ⟨hindex, hlength, rfl, hpending⟩
  · simp only [hextinf, Bool.false_eq_true, if_false]
    split
    · refine ⟨by simp [hindex], by simp [hlength], rfl, ?_⟩
      simp only [Nat.zero_le, if_true, hduration, hpending, hindex]
      by_cases hnew : alreadyKnownCount ≤ whole.segmentIndex
      · rw [if_pos hnew, List.drop_append_of_le_length (by omega)]
      · rw [if_neg hnew, List.drop_eq_nil_of_le (by omega), List.drop_eq_nil_of_le]
        simp only [List.length_append, List.length_singleton]
        omega
    · exact ⟨hindex, hlength, hduration, hpending⟩

theorem M3u8Scan.Skips.foldl {alreadyKnownCount : Nat} {scan whole : M3u8Scan}
    (h : Skips alreadyKnownCount scan whole) (ls : List ByteString) :
    Skips alreadyKnownCount (ls.foldl (M3u8Scan.next arithmetic baseDir alreadyKnownCount) scan)
      (ls.foldl (M3u8Scan.next arithmetic baseDir 0) whole) := by
  induction ls generalizing scan whole with
  | nil => exact h
  | cons line ls ih => exact ih (h.next line)

/-- The new entries are those past the known ones. -/
theorem parseNewM3u8SegmentEntries_eq_drop (playlistText : ByteString) (alreadyKnownCount : Nat) :
    parseNewM3u8SegmentEntries arithmetic baseDir playlistText alreadyKnownCount =
      (parseNewM3u8SegmentEntries arithmetic baseDir playlistText 0).drop alreadyKnownCount := by
  have hstart : M3u8Scan.Skips alreadyKnownCount {} {} := ⟨rfl, rfl, rfl, by simp⟩
  exact (hstart.foldl (lines playlistText)).pending_eq

theorem M3u8Scan.prefix_foldl (scan : M3u8Scan) (ls : List ByteString) :
    scan.pending <+: (ls.foldl (M3u8Scan.next arithmetic baseDir 0) scan).pending := by
  induction ls generalizing scan with
  | nil => exact List.prefix_rfl
  | cons line ls ih =>
      refine List.IsPrefix.trans ?_ (ih (scan.next arithmetic baseDir 0 line))
      simp only [M3u8Scan.next, Nat.zero_le, if_true]
      split
      · exact List.prefix_rfl
      · split
        · exact List.prefix_append ..
        · exact List.prefix_rfl

/-- A playlist that grows by whole lines keeps its entries. -/
theorem parseNewM3u8SegmentEntries_grown (text more : ByteString) :
    parseNewM3u8SegmentEntries arithmetic baseDir (text ++ [10]) 0 <+:
      parseNewM3u8SegmentEntries arithmetic baseDir (text ++ 10 :: more) 0 := by
  simp only [parseNewM3u8SegmentEntries, lines_append_newline, List.foldl_append]
  have hlast : (lines []).foldl (M3u8Scan.next arithmetic baseDir 0)
      ((lines text).foldl (M3u8Scan.next arithmetic baseDir 0) {}) =
      (lines text).foldl (M3u8Scan.next arithmetic baseDir 0) {} := by
    simp [lines, M3u8Scan.next, dropCarriageReturn, ascii]
  rw [hlast]
  exact M3u8Scan.prefix_foldl _ _

end Parse

/-! ## the other functions -/

/-- `CountLeadingProbedSegments`. -/
def countLeadingProbedSegments (probedSizes : List Int) : Nat :=
  (probedSizes.takeWhile fun size => decide (size > 0)).length

/-- `base.pop_back()` while it ends in a slash. -/
def dropTrailingSlashes (base : ByteString) : ByteString :=
  (base.reverse.dropWhile (· == 47)).reverse

/-- `RebaseRecordingSegmentUrl`. -/
def rebaseRecordingSegmentUrl (segmentUrl baseUrl requiredPathPrefix : ByteString) : ByteString :=
  let schemeEnd : Option Nat :=
    if (ascii "http://").isPrefixOf segmentUrl then some 7
    else if (ascii "https://").isPrefixOf segmentUrl then some 8
    else none
  match schemeEnd with
  | none => segmentUrl
  | some schemeEnd =>
      if baseUrl.isEmpty then segmentUrl
      else
        -- from the first slash after the scheme on
        let path := (segmentUrl.drop schemeEnd).dropWhile (· != 47)
        if path.isEmpty then segmentUrl
        else if !requiredPathPrefix.isPrefixOf path then segmentUrl
        else dropTrailingSlashes baseUrl ++ path

/-- `M3u8HasEndList`: a line that is the tag, up to blanks after it. -/
def m3u8HasEndList (playlistText : ByteString) : Bool :=
  (lines playlistText).any fun line =>
    (line.reverse.dropWhile fun b => b == 13 || b == 32 || b == 9).reverse ==
      ascii "#EXT-X-ENDLIST"

end DispatcharrPvr
