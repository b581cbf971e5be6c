import DispatcharrPvr.LiveTimeshift
import DispatcharrPvr.M3u8SegmentParser

/-!
# InProgressRecording

A recording that is played while it is being written: the refresh of its
segment list (`RefreshInProgressRecordingManifest`), with the rules for a
segment that cannot be sized (`UnprobeableSegment.cpp`) and for the end of the
recording (`RecordingVisibility.cpp`).

Time points are nanoseconds of the steady clock.  `int64_t` sums are `Int`.
-/

namespace DispatcharrPvr

/-! ## UnprobeableSegment -/

/-- `kUnprobeableSegmentMinFailures`. -/
def unprobeableSegmentMinFailures : Nat := 5

/-- `kUnprobeableSegmentMinWait`, 30 s. -/
def unprobeableSegmentMinWait : Int := 30000000000

/-- `UnprobeableSegmentTracker`. -/
structure UnprobeableSegmentTracker where
  url : ByteString := []
  consecutiveFailures : Nat := 0
  firstFailedAt : Int := 0
deriving DecidableEq, Repr

/-- `ShouldProbeOnlyLeadingSegment`. -/
def shouldProbeOnlyLeadingSegment (tracker : UnprobeableSegmentTracker)
    (leadingPendingUrl : ByteString) : Bool :=
  decide (tracker.consecutiveFailures > 0) && !tracker.url.isEmpty &&
    tracker.url == leadingPendingUrl

/-- `UpdateUnprobeableSegmentTracker`: the tracker after it, and whether to
give up on the segment. -/
def updateUnprobeableSegmentTracker (tracker : UnprobeableSegmentTracker) (leadingUrl : ByteString)
    (leadingFailed : Bool) (now : Int) : UnprobeableSegmentTracker × Bool :=
  if leadingUrl.isEmpty || !leadingFailed then ({}, false)
  else
    let tracker : UnprobeableSegmentTracker :=
      if tracker.url ≠ leadingUrl then
        { url := leadingUrl, consecutiveFailures := 1, firstFailedAt := now }
      else { tracker with consecutiveFailures := tracker.consecutiveFailures + 1 }
    if unprobeableSegmentMinFailures ≤ tracker.consecutiveFailures ∧
        unprobeableSegmentMinWait ≤ now - tracker.firstFailedAt then
      ({}, true)
    else (tracker, false)

/-- `IndexToArmTrackerAfterMerge`. -/
def indexToArmTrackerAfterMerge (probedSizes : List Int) (mergedCount : Nat)
    (leadingGivenUp : Bool) (probedCount : Nat) : Nat :=
  if leadingGivenUp ∨ mergedCount = 0 ∨ probedSizes.length ≤ mergedCount ∨
      probedCount ≤ mergedCount then probedSizes.length
  else if probedSizes.getD mergedCount 0 ≤ 0 then mergedCount else probedSizes.length

/-- `CountMergeableSegments`. -/
def countMergeableSegments (probedSizes : List Int) (leadingGivenUp : Bool) : Nat :=
  if !leadingGivenUp || probedSizes.isEmpty then countLeadingProbedSegments probedSizes
  else 1 + countLeadingProbedSegments (probedSizes.drop 1)

/-! ## RecordingVisibility -/

/-- `kEndListGrace`, 15 s. -/
def endListGrace : Int := 15000000000

/-- `GetRecordingById` as the refresh reads it: whether the recording is in
progress, or the status of a failed lookup, 0 for no answer. -/
inductive RecordingLookup where
  | answered (isInProgress : Bool)
  | failed (httpStatus : Int) (authenticationNotCompleted : Bool)
deriving DecidableEq, Repr

/-- `ResolveInProgressFinished`. -/
def resolveInProgressFinished (lookup : RecordingLookup) (previousFinished allProbesSucceeded : Bool) :
    Bool :=
  match lookup with
  | .failed _ _ => previousFinished
  | .answered isInProgress => if isInProgress then false else allProbesSucceeded

/-- `GateFinishedOnEndList`: the answer, and `waitingSince` after it. -/
def gateFinishedOnEndList (candidateFinished playlistHasEndList : Bool) (waitingSince : Option Int)
    (now grace : Int) : Bool × Option Int :=
  if !candidateFinished then (false, none)
  else if playlistHasEndList then (true, none)
  else
    let since := waitingSince.getD now
    (decide (grace ≤ now - since), some since)

/-- `IsInProgressContentGone`. -/
def isInProgressContentGone (hadSegments playlistWasNotFound : Bool) (lookup : RecordingLookup) :
    Bool :=
  hadSegments && playlistWasNotFound &&
    match lookup with
    | .answered isInProgress => !isInProgress
    | .failed httpStatus _ => httpStatus == 404

/-- `ShouldSkipPlaylistAfterUnansweredLookup`, for a stream with or without
segments (`IsInProgressSteadyState`). -/
def shouldSkipPlaylistAfterUnansweredLookup (coldStart haveSegments : Bool)
    (lookup : RecordingLookup) : Bool :=
  !coldStart && haveSegments &&
    match lookup with
    | .answered _ => false
    | .failed httpStatus authenticationNotCompleted =>
        httpStatus == 0 && !authenticationNotCompleted

/-! ## the stream -/

/-- `InProgressRecordingSegmentInfo`. -/
structure InProgressRecordingSegmentInfo where
  url : ByteString := []
  byteSize : Int := 0
  byteOffset : Int := 0
  timeOffsetMs : Int := 0
deriving DecidableEq, Repr

/-- The fields of `InProgressRecordingStreamState` that a refresh works on. -/
structure InProgressRecordingStreamState where
  segments : List InProgressRecordingSegmentInfo := []
  totalBytes : Int := 0
  totalDurationMs : Int := 0
  finished : Bool := false
  endListWaitingSince : Option Int := none
  unprobeableSegment : UnprobeableSegmentTracker := {}
  contentGone : Bool := false
deriving DecidableEq, Repr

/-- What a refresh is made with: the server's address, the recording, and the
arithmetic on durations. -/
structure InProgressSource where
  baseUrl : ByteString
  recordingId : Int
  arithmetic : DoubleArithmetic

namespace InProgressSource

/-- `kRecordingsPath` and the recording's directory. -/
def hlsPath (source : InProgressSource) : ByteString :=
  ascii "/api/channels/recordings/" ++ toByteString source.recordingId ++ ascii "/hls/"

/-- The new entries of a playlist, their URLs on the configured server. -/
def pending (source : InProgressSource) (playlistText : ByteString) (alreadyKnown : Nat) :
    List M3u8SegmentEntry :=
  (parseNewM3u8SegmentEntries source.arithmetic (source.baseUrl ++ source.hlsPath) playlistText
    alreadyKnown).map fun entry =>
      { entry with url := rebaseRecordingSegmentUrl entry.url source.baseUrl source.hlsPath }

/-- All the entries of a playlist. -/
def entries (source : InProgressSource) (playlistText : ByteString) : List M3u8SegmentEntry :=
  source.pending playlistText 0

/-- `static_cast<int64_t>(durationSec * 1000 + 0.5)`. -/
def durationMs (source : InProgressSource) (entry : M3u8SegmentEntry) : Int :=
  let scaled := source.arithmetic.round (entry.durationSec * 1000)
  let shifted := source.arithmetic.round (scaled + 1 / 2)
  shifted.num.tdiv shifted.den

end InProgressSource

/-- How the fetch of the playlist ended. -/
inductive PlaylistFetch where
  | fetched (playlistText : ByteString)
  | failed (wasNotFound : Bool)
deriving DecidableEq, Repr

/-- One refresh that is not throttled: the clock, the lookup, the playlist, and
the size each probe of a new entry gave, not positive for one that failed. -/
structure InProgressRefresh where
  now : Int
  coldStart : Bool := false
  lookup : RecordingLookup
  playlist : PlaylistFetch
  probe : Nat → Int := fun _ => -1
  probedAt : Int
  armedAt : Int

/-- What the probes of one refresh made of its new entries. -/
structure ProbedEntries where
  sizes : List Int
  gaveUpOnLeading : Bool
  mergedCount : Nat
  tracker : UnprobeableSegmentTracker

namespace ProbedEntries

/-- The entries of which the size could not be got. -/
def failedProbeCount (probed : ProbedEntries) : Nat :=
  ((probed.sizes.drop probed.mergedCount).filter fun size => decide (size ≤ 0)).length

end ProbedEntries

namespace InProgressRecordingStreamState

/-- How many of the new entries are probed: the leading one alone while it is
being retried. -/
def probeCount (tracker : UnprobeableSegmentTracker) (pending : List M3u8SegmentEntry) : Nat :=
  match pending with
  | [] => 0
  | leading :: _ => if shouldProbeOnlyLeadingSegment tracker leading.url then 1 else pending.length

/-- The sizes the probes give; an entry that is not probed keeps its -1. -/
def probedSizes (tracker : UnprobeableSegmentTracker) (pending : List M3u8SegmentEntry)
    (r : InProgressRefresh) : List Int :=
  (List.range pending.length).map fun i => if i < probeCount tracker pending then r.probe i else -1

/-- The probes and the tracker: everything between parsing and merging. -/
def probeEntries (tracker : UnprobeableSegmentTracker) (pending : List M3u8SegmentEntry)
    (r : InProgressRefresh) : ProbedEntries :=
  match pending with
  | [] => { sizes := [], gaveUpOnLeading := false, mergedCount := 0, tracker }
  | leading :: _ =>
      let probed := probedSizes tracker pending r
      let probedCount := probeCount tracker pending
      let (tracker, gaveUpOnLeading) := updateUnprobeableSegmentTracker tracker leading.url
        (decide (probed.getD 0 (-1) ≤ 0)) r.probedAt
      let sizes := if gaveUpOnLeading then probed.set 0 0 else probed
      let mergedCount := countMergeableSegments sizes gaveUpOnLeading
      let armIndex := indexToArmTrackerAfterMerge sizes mergedCount gaveUpOnLeading probedCount
      { sizes
        gaveUpOnLeading
        mergedCount
        tracker :=
          match pending[armIndex]? with
          | none => tracker
          | some entry => (updateUnprobeableSegmentTracker tracker entry.url true r.armedAt).1 }

/-- One entry merged: the body of the append loop. -/
def append (source : InProgressSource) (st : InProgressRecordingStreamState)
    (sized : M3u8SegmentEntry × Int) : InProgressRecordingStreamState :=
  let (offsets, totalBytes, totalDurationMs) := appendSegmentOffsets sized.2
    (source.durationMs sized.1) st.totalBytes st.totalDurationMs
  { st with
    segments := st.segments ++
      [{ url := sized.1.url
         byteSize := sized.2
         byteOffset := offsets.byteOffset
         timeOffsetMs := offsets.timeOffsetMs }]
    totalBytes
    totalDurationMs }

/-- The entries of a fetched playlist merged, before `finished` is decided. -/
def merge (source : InProgressSource) (st : InProgressRecordingStreamState)
    (playlistText : ByteString) (r : InProgressRefresh) : InProgressRecordingStreamState :=
  let pending := source.pending playlistText st.segments.length
  let probed := probeEntries st.unprobeableSegment pending r
  ((pending.zip probed.sizes).take probed.mergedCount).foldl (append source)
    { st with unprobeableSegment := probed.tracker }

/-- `RefreshInProgressRecordingManifest`. -/
def refresh (source : InProgressSource) (st : InProgressRecordingStreamState)
    (r : InProgressRefresh) : InProgressRecordingStreamState :=
  if st.contentGone then st
  else if shouldSkipPlaylistAfterUnansweredLookup r.coldStart (!st.segments.isEmpty) r.lookup then st
  else
    match r.playlist with
    | .failed wasNotFound =>
        let finished :=
          if wasNotFound then resolveInProgressFinished r.lookup st.finished true else st.finished
        if isInProgressContentGone (!st.segments.isEmpty) wasNotFound r.lookup then
          { st with finished := true, contentGone := true }
        else { st with finished }
    | .fetched playlistText =>
        let pending := source.pending playlistText st.segments.length
        let probed := probeEntries st.unprobeableSegment pending r
        let statusFinished :=
          resolveInProgressFinished r.lookup st.finished (probed.failedProbeCount == 0)
        let (finished, endListWaitingSince) := gateFinishedOnEndList statusFinished
          (m3u8HasEndList playlistText) st.endListWaitingSince r.now endListGrace
        { st.merge source playlistText r with finished, endListWaitingSince }

/-- The refreshes, one after the other. -/
def refreshes (source : InProgressSource) (st : InProgressRecordingStreamState)
    (rs : List InProgressRefresh) : InProgressRecordingStreamState :=
  rs.foldl (refresh source) st

end InProgressRecordingStreamState

end DispatcharrPvr
