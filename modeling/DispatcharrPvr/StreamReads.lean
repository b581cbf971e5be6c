import DispatcharrPvr.Lib.Cut
import DispatcharrPvr.LiveTimeshift.TailWait
import DispatcharrPvr.RedirectPolicy
import Mathlib.Data.List.Infix

/-!
# StreamReads

What the reads of a stream share: the buffer a transfer fills and the total that
its head tells (`CurlCallbacks.cpp`), when a failing read is retried, handed back
or given up (`SegmentFetchFailure.h`), and what an answer is taken for
(`RecordingHttpUtil.h`).
-/

namespace DispatcharrPvr

/-! ## CurlCallbacks -/

/-- `FixedBufferSink`, with what has been written of its buffer. -/
structure FixedBufferSink where
  capacity : Nat
  written : ByteString := []
  truncated : Bool := false
  abortWhenFull : Bool := false
deriving DecidableEq, Repr

namespace FixedBufferSink

/-- `FixedBufferWriteCallback`; `none` is the return value that ends the transfer. -/
def write (sink : FixedBufferSink) (bytes : ByteString) : FixedBufferSink × Option Nat :=
  let toCopy := min bytes.length (sink.capacity - sink.written.length)
  let filled := { sink with written := sink.written ++ bytes.take toCopy }
  if toCopy < bytes.length then
    ({ filled with truncated := true }, if sink.abortWhenFull then none else some bytes.length)
  else (filled, some bytes.length)

/-- The writes of a transfer: what is left of the buffer, and whether the transfer
was ended by it. -/
def transfer (sink : FixedBufferSink) : List ByteString → FixedBufferSink × Bool
  | [] => (sink, true)
  | bytes :: rest =>
      match sink.write bytes with
      | (filled, some _) => filled.transfer rest
      | (filled, none) => (filled, false)

/-- What is cut off once is not missed at the same length. -/
theorem take_take_append (n : Nat) (xs ys : ByteString) :
    (xs.take n ++ ys).take n = (xs ++ ys).take n := by
  by_cases hlong : n ≤ xs.length
  · rw [List.take_append_of_le_length (by simp [hlong]), List.take_take, Nat.min_self,
      List.take_append_of_le_length hlong]
  · rw [List.take_of_length_le (by omega : xs.length ≤ n)]

theorem write_spec (sink : FixedBufferSink) (bytes : ByteString)
    (h : sink.written.length ≤ sink.capacity) :
    (sink.write bytes).1.written = (sink.written ++ bytes).take sink.capacity ∧
      (sink.write bytes).1.capacity = sink.capacity ∧
      ((sink.write bytes).2 = none → sink.capacity ≤ (sink.written ++ bytes).length) := by
  have htake : sink.written ++ bytes.take (min bytes.length (sink.capacity - sink.written.length)) =
      (sink.written ++ bytes).take sink.capacity := by
    rw [List.take_append, List.take_of_length_le h, Nat.min_comm, ← List.take_eq_take_min]
  unfold write
  dsimp only
  split
  · next hlonger =>
      refine ⟨htake, rfl, fun _ => ?_⟩
      rw [List.length_append]
      omega
  · exact ⟨htake, rfl, by simp⟩

/-- However a body arrives, the buffer holds the front of it, as far as it fits. -/
theorem transfer_written (sink : FixedBufferSink) (chunks : List ByteString)
    (h : sink.written.length ≤ sink.capacity) :
    (sink.transfer chunks).1.written = (sink.written ++ chunks.flatten).take sink.capacity := by
  induction chunks generalizing sink with
  | nil => simp [transfer, List.take_of_length_le h]
  | cons bytes rest ih =>
      obtain ⟨hwritten, hcapacity, hended⟩ := sink.write_spec bytes h
      have hfits : (sink.write bytes).1.written.length ≤ (sink.write bytes).1.capacity := by
        rw [hwritten, hcapacity, List.length_take]
        omega
      have hrest := ih (sink.write bytes).1 hfits
      rw [hwritten, hcapacity, take_take_append, List.append_assoc] at hrest
      unfold transfer
      split
      · next filled n heq =>
          rw [heq] at hrest
          exact hrest
      · next filled heq =>
          -- ended by a full buffer: no more of the body would fit
          rw [heq] at hwritten hended
          rw [hwritten, List.flatten_cons, ← List.append_assoc,
            List.take_append_of_le_length (hended rfl)]

end FixedBufferSink

/-- `RecordingHeaderCallback`: the total so far, and a line of the head. -/
def recordingHeaderCallback (total : Int) (line : ByteString) : Int :=
  if toLower (line.take 14) = ascii "content-range:" then
    match Cut.cutLast 47 line with
    | some (_, behind) => (Decimal.stoll behind).getD total
    | none => total
  else total

/-- A line of another name leaves the total as it is. -/
theorem recordingHeaderCallback_of_ne {name : ByteString} (hshort : name.length ≤ 14)
    (hname : toLower name ≠ (ascii "content-range:").take name.length) (total : Int)
    (rest : ByteString) : recordingHeaderCallback total (name ++ rest) = total := by
  refine if_neg fun heq => hname ?_
  rw [← heq, toLower, toLower, ← List.map_take, List.take_take, Nat.min_eq_left hshort,
    List.take_left]

/-- The total of a `Content-Range`. -/
theorem recordingHeaderCallback_range {n : Nat} (hn : n ≤ 9223372036854775807) (total : Int)
    (range : ByteString) :
    recordingHeaderCallback total
      (ascii "Content-Range:" ++ range ++ 47 :: (Decimal.digits n ++ [13, 10])) = n := by
  have hname : toLower ((ascii "Content-Range:" ++ range ++
      47 :: (Decimal.digits n ++ [13, 10])).take 14) = ascii "content-range:" := by
    rw [List.append_assoc, List.take_left' (by decide)]
    decide
  have hdigits : (47 : UInt8) ∉ Decimal.digits n ++ [13, 10] := by
    rw [List.mem_append, not_or]
    refine ⟨fun hmem => ?_, by decide⟩
    have hdigit := List.all_eq_true.mp (Decimal.digits_spec n).1 47 hmem
    exact absurd hdigit (by decide)
  rw [recordingHeaderCallback, if_pos hname, Cut.cutLast_eq_some_iff.mpr ⟨rfl, hdigits⟩]
  dsimp only
  rw [Decimal.stoll_digits_append hn (by decide)]
  rfl

/-! ## SegmentFetchFailure -/

/-- `ShouldGiveUpAfterSegmentFetchFailure`, the two spans in milliseconds. -/
def shouldGiveUpAfterSegmentFetchFailure (consecutiveFailures : Nat) (refreshFatal : Bool)
    (maxAttempts : Nat) (failingFor minFailingFor : Int) : Bool :=
  refreshFatal || (decide (maxAttempts ≤ consecutiveFailures) && decide (minFailingFor ≤ failingFor))

/-- The loop of `SegmentFetchRetryDelayMs`: `n` doublings, or fewer once 2000 is
reached. -/
def doubledDelay : Nat → Int → Int
  | 0, delay => delay
  | n + 1, delay => if delay < 2000 then doubledDelay n (delay * 2) else delay

/-- `SegmentFetchRetryDelayMs`. -/
def segmentFetchRetryDelayMs (consecutiveFailures : Nat) : Int :=
  min (doubledDelay (consecutiveFailures - 1) 250) 2000

theorem le_doubledDelay (n : Nat) {delay : Int} (h : 0 ≤ delay) : delay ≤ doubledDelay n delay := by
  induction n generalizing delay with
  | zero => exact Int.le_refl _
  | succ n ih =>
      unfold doubledDelay
      split
      · have htwice : delay * 2 ≤ doubledDelay n (delay * 2) := ih (by omega)
        omega
      · exact Int.le_refl _

theorem segmentFetchRetryDelayMs_bounds (n : Nat) :
    250 ≤ segmentFetchRetryDelayMs n ∧ segmentFetchRetryDelayMs n ≤ 2000 := by
  have hfirst : 250 ≤ doubledDelay (n - 1) 250 := le_doubledDelay (n - 1) (by decide)
  unfold segmentFetchRetryDelayMs
  omega

/-- `IsTransientReadFailure`. -/
def isTransientReadFailure (transferOk : Bool) (httpCode : Int) : Bool :=
  !transferOk || httpCode == 500 || httpCode == 502 || httpCode == 503 || httpCode == 504

/-- `ShouldKeepRetryingTransientRead`. -/
def shouldKeepRetryingTransientRead (waited budget : Int) : Bool := decide (waited < budget)

/-- `kTransientReadBudget`, in milliseconds. -/
def kTransientReadBudget : Int := 20000

/-! ### how often a read is retried -/

/-- How long a read has slept after so many failures, in milliseconds. -/
def sleptMs : Nat → Int
  | 0 => 0
  | failures + 1 => sleptMs failures + segmentFetchRetryDelayMs (failures + 1)

theorem sleptMs_thirteen_le (more : Nat) : 20000 ≤ sleptMs (13 + more) := by
  induction more with
  | zero => decide
  | succ more ih =>
      have hdelay := (segmentFetchRetryDelayMs_bounds (13 + more + 1)).1
      show 20000 ≤ sleptMs (13 + more) + segmentFetchRetryDelayMs (13 + more + 1)
      omega

/-- A read that goes on has not slept through its budget. -/
theorem lt_thirteen {failures : Nat} {start now : Int}
    (hslept : start + sleptMs failures * 1000000 ≤ now)
    (hwithin : milliseconds (now - start) < kTransientReadBudget) : failures < 13 := by
  refine Nat.lt_of_not_le fun hmany => ?_
  obtain ⟨more, rfl⟩ := Nat.exists_eq_add_of_le hmany
  have hlong := sleptMs_thirteen_le more
  have hbudget : milliseconds 20000000000 ≤ milliseconds (now - start) :=
    Int.tdiv_le_tdiv (by decide) (by omega)
  exact absurd hwithin (Int.not_lt.mpr hbudget)

/-- How many requests a read may still make. -/
def requestsLeft (apiKeyRefreshed : Bool) (transientFailures : Nat) : Nat :=
  13 - transientFailures + (if apiKeyRefreshed then 0 else 1) + 1

/-- `LiveSegmentRetryStep`. -/
inductive LiveSegmentRetryStep where
  | tryAgain
  | handBack
  | stop
deriving DecidableEq, Repr

/-- `DecideLiveSegmentRetryStep`. -/
def decideLiveSegmentRetryStep (aborted : Bool) (sinceReadStarted slice : Int) :
    LiveSegmentRetryStep :=
  if aborted then .stop else if slice ≤ sinceReadStarted then .handBack else .tryAgain

theorem lt_of_tryAgain {aborted : Bool} {sinceReadStarted slice : Int}
    (h : decideLiveSegmentRetryStep aborted sinceReadStarted slice = .tryAgain) :
    sinceReadStarted < slice := by
  unfold decideLiveSegmentRetryStep at h
  split at h
  · cases h
  split at h
  · cases h
  · omega

/-- `kPermanentReadFailureMinCount`. -/
def kPermanentReadFailureMinCount : Nat := 5

/-- `kPermanentReadFailureMinSpan`, 3000 ms. -/
def kPermanentReadFailureMinSpan : Int := 3000000000

/-- `PermanentReadFailureTracker`. -/
structure PermanentReadFailureTracker where
  count : Nat := 0
  firstAt : Int := 0
  ended : Bool := false
deriving DecidableEq, Repr

/-- What a viewer is told of a recording whose reads keep failing. -/
def unreadableNotice : String := "This recording can't be read from Dispatcharr any more."

namespace PermanentReadFailureTracker

/-- `RecordPermanentReadFailure`. -/
def record (tracker : PermanentReadFailureTracker) (now : Int) :
    PermanentReadFailureTracker × Bool :=
  if tracker.ended then (tracker, true)
  else
    let firstAt := if tracker.count = 0 then now else tracker.firstAt
    let count := tracker.count + 1
    let ended := decide (kPermanentReadFailureMinCount ≤ count) &&
      decide (kPermanentReadFailureMinSpan ≤ now - firstAt)
    ({ count, firstAt, ended }, ended)

theorem record_snd (tracker : PermanentReadFailureTracker) (now : Int) :
    (tracker.record now).2 = (tracker.record now).1.ended := by
  unfold record
  split
  · next hended => exact hended.symm
  · rfl

/-- `ResetPermanentReadFailures`. -/
def reset (tracker : PermanentReadFailureTracker) : PermanentReadFailureTracker :=
  if tracker.ended then tracker else {}

/-! ### the failures in a row -/

/-- The failures in a row, the latest first, are enough, and began long enough ago. -/
def Enough (failures : List Int) : Prop :=
  kPermanentReadFailureMinCount ≤ failures.length ∧
    ∃ last ∈ failures.head?, ∃ first ∈ failures.getLast?, kPermanentReadFailureMinSpan ≤ last - first

/-- The tracker of these failures in a row. -/
structure Tracks (tracker : PermanentReadFailureTracker) (failures : List Int) : Prop where
  ended : tracker.ended = true ↔ Enough failures
  count : tracker.ended = false → tracker.count = failures.length
  firstAt : tracker.ended = false → failures ≠ [] → failures.getLast? = some tracker.firstAt

theorem not_enough_nil : ¬ Enough [] := by simp [Enough, kPermanentReadFailureMinCount]

theorem tracks_init : Tracks {} [] := ⟨by simp [not_enough_nil], fun _ => rfl, by simp⟩

theorem tracks_reset {tracker : PermanentReadFailureTracker} (hgoing : tracker.ended = false) :
    tracker.reset.Tracks [] := by
  rw [reset, if_neg (by simp [hgoing])]
  exact tracks_init

/-- One more failure. -/
theorem Tracks.record {tracker : PermanentReadFailureTracker} {failures : List Int}
    (h : tracker.Tracks failures) (hgoing : tracker.ended = false) (now : Int) :
    (tracker.record now).1.Tracks (now :: failures) := by
  have hcount := h.count hgoing
  have hfirst : (now :: failures).getLast? =
      some (if tracker.count = 0 then now else tracker.firstAt) := by
    rw [List.getLast?_cons]
    by_cases hnone : failures = []
    · simp [hnone, hcount]
    · have hcount' : tracker.count ≠ 0 := by
        rw [hcount]
        exact fun hzero => hnone (List.length_eq_zero_iff.mp hzero)
      rw [h.firstAt hgoing hnone, if_neg hcount']
      rfl
  unfold PermanentReadFailureTracker.record
  rw [if_neg (by simp [hgoing])]
  refine ⟨?_, fun _ => by simp [hcount], fun _ _ => hfirst⟩
  simp [Enough, hfirst, hcount, and_comm]

end PermanentReadFailureTracker

/-! ## RequestTimeout -/

/-- `ColdStartWallClockBudgetMs`, with the short timeout of a request. -/
def coldStartWallClockBudgetMs (maxTries : Nat) (sleepMs shortRequestTimeoutMs : Int) : Int :=
  maxTries * sleepMs + shortRequestTimeoutMs

/-! ## RecordingHttpUtil -/

/-- `HasRecordingFileChanged`. -/
def hasRecordingFileChanged (cachedLength serverReportedTotal : Int) : Bool :=
  decide (0 ≤ cachedLength) && decide (0 ≤ serverReportedTotal) && serverReportedTotal != cachedLength

/-- `ServerIgnoredRangeRequest`. -/
def serverIgnoredRangeRequest (requestedOffset httpCode : Int) : Bool :=
  httpCode == 200 && decide (0 < requestedOffset)

/-- `LiveSegmentOutcome`. -/
inductive LiveSegmentOutcome where
  | transportFailure
  | segmentGone
  | rangeIgnored
  | unexpectedStatus
  | sizeMismatch
  | ok
deriving DecidableEq, Repr

/-- `ClassifyLiveSegmentResponse`. -/
def classifyLiveSegmentResponse (transferOk : Bool)
    (httpCode offsetInSegment serverReportedTotal segmentByteSize : Int) : LiveSegmentOutcome :=
  if !transferOk then .transportFailure
  else if httpCode = 404 then .segmentGone
  else if serverIgnoredRangeRequest offsetInSegment httpCode then .rangeIgnored
  else if httpCode ≠ 200 ∧ httpCode ≠ 206 then .unexpectedStatus
  else if 0 ≤ serverReportedTotal ∧ serverReportedTotal ≠ segmentByteSize then .sizeMismatch
  else .ok

/-- `RecordingReadOutcome`. -/
inductive RecordingReadOutcome where
  | refreshApiKeyAndRetry
  | retryTransient
  | failPermanently
  | rangeIgnored
  | fileChanged
  | ok
deriving DecidableEq, Repr

/-- `ClassifyRecordingReadResponse`. -/
def classifyRecordingReadResponse (transferOk : Bool) (httpCode : Int) (apiKeyAlreadyRefreshed : Bool)
    (position cachedLength serverReportedTotal : Int) : RecordingReadOutcome :=
  if httpCode = 401 ∧ !apiKeyAlreadyRefreshed then .refreshApiKeyAndRetry
  else if isTransientReadFailure transferOk httpCode then .retryTransient
  else if httpCode ≠ 200 ∧ httpCode ≠ 206 then .failPermanently
  else if serverIgnoredRangeRequest position httpCode then .rangeIgnored
  else if hasRecordingFileChanged cachedLength serverReportedTotal then .fileChanged
  else .ok

/-- `IsInProgressHlsRedirect`. -/
def isInProgressHlsRedirect (contentType resolvedUrl : ByteString) : Bool :=
  decide (ascii "mpegurl" <:+: toLower contentType) || decide (ascii "/hls/" <:+: resolvedUrl)

/-- `DescribeRecordingOpenFailure`. -/
def describeRecordingOpenFailure (httpCode : Int) : String :=
  if httpCode = 404 then
    "Dispatcharr has no file for this recording. It may have been stopped before anything was " ++
      "recorded, or its file was removed."
  else if httpCode = 403 then "Dispatcharr refused access to this recording."
  else ""

/-- `RecordingOpenOutcome`. -/
inductive RecordingOpenOutcome where
  | transferFailed
  | refreshApiKeyAndRetry
  | httpFailure
  | inProgressRecording
  | ok
deriving DecidableEq, Repr

/-- `ClassifyRecordingOpenResponse`. -/
def classifyRecordingOpenResponse (transferOk sizeLimitExceeded : Bool) (httpCode : Int)
    (apiKeyAlreadyRefreshed : Bool) (contentType resolvedUrl : ByteString) : RecordingOpenOutcome :=
  if !transferOk && !sizeLimitExceeded then .transferFailed
  else if httpCode = 401 ∧ !apiKeyAlreadyRefreshed then .refreshApiKeyAndRetry
  else if httpCode < 200 ∨ 300 ≤ httpCode then .httpFailure
  else if isInProgressHlsRedirect contentType resolvedUrl then .inProgressRecording
  else .ok

/-- `InProgressSegmentOutcome`. -/
inductive InProgressSegmentOutcome where
  | refreshApiKeyAndRetry
  | retryTransient
  | segmentNotFound
  | failPermanently
  | ok
deriving DecidableEq, Repr

/-- `ClassifyInProgressSegmentResponse`. -/
def classifyInProgressSegmentResponse (transferOk : Bool) (httpCode : Int)
    (apiKeyAlreadyRefreshed : Bool) : InProgressSegmentOutcome :=
  if httpCode = 401 ∧ !apiKeyAlreadyRefreshed then .refreshApiKeyAndRetry
  else if isTransientReadFailure transferOk httpCode then .retryTransient
  else if httpCode = 404 then .segmentNotFound
  else if httpCode ≠ 200 then .failPermanently
  else .ok

theorem classifyLiveSegmentResponse_eq_ok_iff {transferOk : Bool}
    {httpCode offsetInSegment serverReportedTotal segmentByteSize : Int} :
    classifyLiveSegmentResponse transferOk httpCode offsetInSegment serverReportedTotal
        segmentByteSize = .ok ↔
      transferOk = true ∧ (httpCode = 206 ∨ httpCode = 200 ∧ offsetInSegment ≤ 0) ∧
        (0 ≤ serverReportedTotal → serverReportedTotal = segmentByteSize) := by
  unfold classifyLiveSegmentResponse serverIgnoredRangeRequest
  cases transferOk <;> simp only [Bool.not_true, Bool.not_false, if_true, reduceCtorEq, false_and]
  grind

end DispatcharrPvr
