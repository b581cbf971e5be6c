import DispatcharrPvr.InProgressRecording.SegmentCache
import DispatcharrPvr.Lib.Layout
import DispatcharrPvr.LiveTimeshift.Stream
import DispatcharrPvr.RedirectPolicy
import DispatcharrPvr.StreamReads
import DispatcharrPvr.StreamSeek

/-!
# InProgressRecording.Playback

A recording that is played while it is being written, as its lock guards it
(`InProgressRecordingStreamState`), and what each stretch of
`DispatcharrClient.cpp` that holds `m_inProgressStateMutex` makes of it.  A
stretch ends where the lock is released for a network call or a sleep; the time
it looks at is one time `now`.
-/

namespace DispatcharrPvr

/-! ## HlsViewerKeepAlive -/

/-- `kHlsKeepAliveInterval`, 10 s. -/
def kHlsKeepAliveInterval : Int := seconds 10

/-- `kHlsKeepAliveRetryDelay`, 2 s. -/
def kHlsKeepAliveRetryDelay : Int := seconds 2

/-- `ShouldSendHlsViewerKeepAlive`. -/
def shouldSendHlsViewerKeepAlive (contentGone : Bool) (position totalBytes nextDueAt now : Int) :
    Bool :=
  if contentGone then false
  else if totalBytes ≤ position then false
  else decide (nextDueAt ≤ now)

/-- `HlsKeepAliveOutcome`. -/
inductive HlsKeepAliveOutcome where
  | refreshed
  | gone
  | retryLater
deriving DecidableEq, Repr

/-- `ClassifyHlsKeepAliveResponse`. -/
def classifyHlsKeepAliveResponse (transportOk : Bool) (httpStatus : Int) : HlsKeepAliveOutcome :=
  if !transportOk then .retryLater
  else if 200 ≤ httpStatus ∧ httpStatus < 300 then .refreshed
  else if httpStatus = 404 ∨ (300 ≤ httpStatus ∧ httpStatus < 400) then .gone
  else .retryLater

/-- `NextHlsKeepAliveDueAt`. -/
def nextHlsKeepAliveDueAt (now : Int) (outcome : HlsKeepAliveOutcome) : Int :=
  now + if outcome = .retryLater then kHlsKeepAliveRetryDelay else kHlsKeepAliveInterval

/-! ## RecordingVisibility -/

/-- `ShouldRetryInProgressColdStart`. -/
def shouldRetryInProgressColdStart (playlistHttpStatus : Int) (lookup : RecordingLookup) : Bool :=
  playlistHttpStatus == 404 && lookup == .answered true

/-- `InProgressColdStartStep`. -/
inductive InProgressColdStartStep where
  | ready
  | wait
  | fail
  | finishedEmpty
  | finishedPlaylistGone
deriving DecidableEq, Repr

/-- `DecideInProgressColdStartStep`. -/
def decideInProgressColdStartStep (refreshOk retryable haveSegments finished : Bool) :
    InProgressColdStartStep :=
  if !refreshOk then
    if retryable then .wait else if finished then .finishedPlaylistGone else .fail
  else if haveSegments then .ready
  else if finished then .finishedEmpty
  else .wait

/-! ## the stream -/

/-- `kMaxProbedSegmentByteSize` of a 64-bit address space. -/
def kMaxProbedSegmentByteSize : Int := 67108864

/-- `InProgressRecordingStreamState`: what its refreshes work on, and the other
members. -/
structure InProgressStream extends InProgressRecordingStreamState where
  isOpen : Bool := false
  recordingId : Int := -1
  startTime : Int := 0
  position : Int := 0
  lastManifestFetch : Int := 0
  lastSeekTime : Int := 0
  lastShortGiveUpPosition : Int := -1
  /-- Whether there is a persistent handle. -/
  curl : Bool := false
  cachedSegmentBytes : ByteString := []
  cachedSegmentByteOffset : Int := -1
  nextHlsKeepAliveAt : Int := 0
  hlsKeepAliveGone : Bool := false
  permanentReadFailures : PermanentReadFailureTracker := {}
deriving DecidableEq, Repr

/-- A segment as the templates that both streams share read it. -/
def InProgressRecordingSegmentInfo.offsets (seg : InProgressRecordingSegmentInfo) :
    LiveTimeshiftSegmentInfo where
  byteOffset := seg.byteOffset
  byteSize := seg.byteSize
  timeOffsetMs := seg.timeOffsetMs

/-- `FindSegmentContainingPosition`, of a recording's segments. -/
def findRecordingSegment (position : Int) (segments : List InProgressRecordingSegmentInfo) :
    Option InProgressRecordingSegmentInfo :=
  segments.find? (Layout.contains InProgressRecordingSegmentInfo.byteOffset
    InProgressRecordingSegmentInfo.byteSize position)

/-- A segment chosen to be read, from the position it is chosen for. -/
structure RecordingRead where
  position : Int
  segment : InProgressRecordingSegmentInfo
deriving DecidableEq, Repr

def RecordingRead.offsetInSegment (read : RecordingRead) : Int :=
  read.position - read.segment.byteOffset

/-- An answer to the fetch of a segment: how the transfer ended, its status, and the
part of the body that was kept. -/
structure SegmentAnswer where
  transferOk : Bool
  httpCode : Int
  written : ByteString
deriving DecidableEq, Repr

/-- What a refresh asks about. -/
structure AskedPlaylist where
  session : Nat
  recordingId : Int
  now : Int
  coldStart : Bool
  haveSegments : Bool
deriving DecidableEq, Repr

/-- How a refresh ended: what it returns, and `coldStartRetryableOut`. -/
structure PlaylistRefresh where
  ok : Bool := false
  retryable : Bool := false
deriving DecidableEq, Repr

namespace InProgressStream

/-! ## where a read lets go of the stream -/

/-- It returns, or a segment is to be read. -/
inductive Next where
  | returns (result : Int)
  | read (read : RecordingRead)
deriving DecidableEq, Repr

/-- The same, or a wait at the tail. -/
inductive Going where
  | next (next : Next)
  | await (wait : TailWait)
deriving DecidableEq, Repr

/-- What becomes of one attempt of a wait. -/
inductive Attempt where
  | leave (next : Next)
  | sleep
deriving DecidableEq, Repr

/-- What becomes of the fetch of a segment. -/
inductive Fetch where
  | returns (result : Int)
  | delivered (wantSize : Int) (bytes : ByteString)
  /-- The transfer begins. -/
  | perform
  /-- The key is to be obtained anew, after this answer. -/
  | refreshKey (answer : SegmentAnswer)
  /-- It is tried again after a while. -/
  | retry (delayMs : Int)
  /-- A refresh is to say what has become of the recording. -/
  | notFound
  /-- The failures in a row are enough. -/
  | unreadable
deriving DecidableEq, Repr

section Reading

variable (s : InProgressStream) (onServer : ByteString → Bool) (now : Int) (size : Nat)

/-- From the tail check on: the segment to be read. -/
def choose : Next :=
  match findRecordingSegment s.position s.segments with
  | none => .returns 0
  | some seg =>
      if onServer seg.url then .read { position := s.position, segment := seg } else .returns 0

/-- From the start of a read. -/
def arrive : Going :=
  if !s.isOpen || size == 0 then .next (.returns 0)
  else if s.permanentReadFailures.ended then .next (.returns 0)
  else if s.totalBytes ≤ s.position then
    if s.finished then .next (.returns 0)
    else
      let likelySeekProbe := isLikelySeekProbe s.position s.lastShortGiveUpPosition s.lastSeekTime
        now kSeekProbeWindow
      let attempts := computeCatchUpAttempts likelySeekProbe
        (estimateSegmentDurationMs s.totalDurationMs (s.segments.map (·.offsets))) kCatchUpSleepMs
      .await { likelySeekProbe, attempts, startedAt := now }
  else .next (s.choose onServer)

/-- Behind the loop of a wait at the tail. -/
def leaveTail (wait : TailWait) : InProgressStream × Next :=
  let caughtUp := decide (s.position < s.totalBytes)
  let left := { s with
    lastShortGiveUpPosition := computeShortGiveUpPosition wait.likelySeekProbe caughtUp s.position }
  (left, if caughtUp then left.choose onServer else .returns 0)

/-- An attempt of a wait, after its refresh. -/
def afterRefresh (wait : TailWait) (attempt : Nat) : InProgressStream × Attempt :=
  let elapsed := milliseconds (now - wait.startedAt)
  if decide (s.position < s.totalBytes) || s.finished ||
      decide (computeCatchUpWallClockBudgetMs wait.attempts kCatchUpSleepMs ≤ elapsed) ||
      decide (wait.attempts ≤ attempt + 1) then
    ((s.leaveTail onServer wait).1, .leave (s.leaveTail onServer wait).2)
  else (s, .sleep)

/-- The head of the loop, after a sleep: nothing when the next attempt follows. -/
def afterSleep (wait : TailWait) : InProgressStream × Option Next :=
  if s.totalBytes ≤ s.position then (s, none)
  else ((s.leaveTail onServer wait).1, some (s.leaveTail onServer wait).2)

/-- The bytes of the cached segment, as far as they fit. -/
def copyOut (read : RecordingRead) : InProgressStream × Fetch :=
  match segmentReadSize read.offsetInSegment s.cachedSegmentBytes.length size with
  | none => (s, .returns 0)
  | some wantSize =>
      let bytes := (s.cachedSegmentBytes.drop read.offsetInSegment.toNat).take wantSize.toNat
      ({ s with
          position := s.position + wantSize
          permanentReadFailures := s.permanentReadFailures.reset },
        .delivered wantSize bytes)

/-- The handle of a transfer, which may not come about. -/
def prepare (handleReady : Bool) : InProgressStream × Fetch :=
  if s.curl || handleReady then ({ s with curl := true }, .perform) else (s, .returns (-1))

/-- With `m_inProgressCurlMutex` held: the stream may be another one than the segment
was chosen for, or somewhere else. -/
def beginFetch (stillThere handleReady : Bool) (read : RecordingRead) : InProgressStream × Fetch :=
  if !stillThere then (s, .returns (-1))
  else if s.cachedSegmentByteOffset = read.segment.byteOffset then s.copyOut size read
  else if s.contentGone then (s, .returns 0)
  else s.prepare handleReady

/-- A failure that will not clear. -/
def failPermanently : InProgressStream × Fetch :=
  let (tracker, ended) := s.permanentReadFailures.record now
  ({ s with permanentReadFailures := tracker }, if ended then .unreadable else .returns (-1))

/-- By what an answer is taken for, in the session it was asked in. -/
def settle (stillThere aborted : Bool) (read : RecordingRead) (answer : SegmentAnswer)
    (transientFailures : Nat) (start : Int) : InProgressSegmentOutcome → InProgressStream × Fetch
  | .retryTransient =>
      let dropped := { s with curl := s.curl && answer.transferOk }
      if !aborted && shouldKeepRetryingTransientRead (milliseconds (now - start))
          kTransientReadBudget then
        (dropped, .retry (segmentFetchRetryDelayMs (transientFailures + 1)))
      else (dropped, .returns (-1))
  | .segmentNotFound => (s, .notFound)
  | .failPermanently => s.failPermanently now
  | .ok | .refreshApiKeyAndRetry =>
      let cached := { s with
        cachedSegmentBytes := answer.written
        cachedSegmentByteOffset := read.segment.byteOffset
        nextHlsKeepAliveAt := nextHlsKeepAliveDueAt now .refreshed }
      if stillThere then cached.copyOut size read else (cached, .returns (-1))

/-- After a transfer. -/
def endFetch (stillThere aborted : Bool) (read : RecordingRead) (answer : SegmentAnswer)
    (apiKeyRefreshed : Bool) (transientFailures : Nat) (start : Int) : InProgressStream × Fetch :=
  match classifyInProgressSegmentResponse answer.transferOk answer.httpCode apiKeyRefreshed with
  | .refreshApiKeyAndRetry => (s, .refreshKey answer)
  | outcome => s.settle now size stillThere aborted read answer transientFailures start outcome

/-- After the key was asked for. -/
def afterKey (stillThere aborted handleReady regenerated : Bool) (read : RecordingRead)
    (answer : SegmentAnswer) (transientFailures : Nat) (start : Int) : InProgressStream × Fetch :=
  if regenerated then s.prepare handleReady
  else
    s.settle now size stillThere aborted read answer transientFailures start
      (classifyInProgressSegmentResponse answer.transferOk answer.httpCode true)

/-- After the refresh that a missing segment asks for. -/
def afterNotFound : InProgressStream × Fetch :=
  if s.contentGone then (s, .returns 0) else s.failPermanently now

/-! ## SeekInProgressRecordingStream -/

/-- Where a seek lands, with the position it leaves. -/
def seek (position whence : Int) : InProgressStream × Int :=
  if !s.isOpen then (s, -1)
  else
    let newPos := resolveSeekPosition position whence s.position s.totalBytes
    if newPos < 0 then (s, -1)
    else
      let tailTarget := computeLiveEdgeTailTarget (s.segments.map (·.offsets)) s.totalBytes 1
      let target :=
        if !s.finished && decide (tailTarget < newPos) then
          clampSeekToTail newPos s.position tailTarget
        else newPos
      ({ s with position := target }, target)

end Reading

/-! ## MaybeSendInProgressHlsKeepAlive -/

/-- Up to its request: the segment that is asked for, where one is due. -/
def beginKeepAlive (s : InProgressStream) (onServer : ByteString → Bool) (now : Int) :
    InProgressStream × Option ByteString :=
  if !s.isOpen then (s, none)
  else
    match s.segments.getLast? with
    | none => (s, none)
    | some newest =>
        if shouldSendHlsViewerKeepAlive (s.finished || s.hlsKeepAliveGone) s.position s.totalBytes
            s.nextHlsKeepAliveAt now && onServer newest.url then
          ({ s with nextHlsKeepAliveAt := nextHlsKeepAliveDueAt now .retryLater }, some newest.url)
        else (s, none)

/-- Behind its request, in the session it was sent in. -/
def endKeepAlive (s : InProgressStream) (now : Int) (outcome : HlsKeepAliveOutcome) :
    InProgressStream :=
  { s with
    nextHlsKeepAliveAt := nextHlsKeepAliveDueAt now outcome
    hlsKeepAliveGone := s.hlsKeepAliveGone || outcome == .gone }

/-! ## RefreshInProgressRecordingManifest -/

/-- Before its requests: none without a stream, none when the last was just now. -/
def beginAsk (s : InProgressStream) (now : Int) (session : Nat) (force coldStart : Bool) :
    InProgressStream × Option (Option AskedPlaylist) :=
  if !s.isOpen then (s, none)
  else if shouldThrottleRefresh force s.lastManifestFetch now kMinRefreshInterval then (s, some none)
  else
    ({ s with lastManifestFetch := now },
      some (some
        { session
          recordingId := s.recordingId
          now
          coldStart
          haveSegments := !s.segments.isEmpty }))

/-- Behind a playlist that could not be fetched. -/
def withoutPlaylist (s : InProgressStream) (lookup : RecordingLookup) (wasNotFound : Bool) :
    InProgressStream :=
  let told :=
    if wasNotFound then { s with finished := resolveInProgressFinished lookup s.finished true } else s
  if isInProgressContentGone (!told.segments.isEmpty) wasNotFound lookup then
    { told with contentGone := true, finished := true }
  else told

/-- The probes and the tracker, of the sizes that were got. -/
def probedEntries (tracker : UnprobeableSegmentTracker) (pending : List M3u8SegmentEntry)
    (probed : List Int) (probedCount : Nat) (now : Int) : ProbedEntries :=
  match pending with
  | [] => { sizes := [], gaveUpOnLeading := false, mergedCount := 0, tracker }
  | leading :: _ =>
      let (tracker, gaveUpOnLeading) := updateUnprobeableSegmentTracker tracker leading.url
        (decide (probed.getD 0 (-1) ≤ 0)) now
      let sizes := if gaveUpOnLeading then probed.set 0 0 else probed
      let mergedCount := countMergeableSegments sizes gaveUpOnLeading
      let armIndex := indexToArmTrackerAfterMerge sizes mergedCount gaveUpOnLeading probedCount
      { sizes
        gaveUpOnLeading
        mergedCount
        tracker :=
          match pending[armIndex]? with
          | none => tracker
          | some entry => (updateUnprobeableSegmentTracker tracker entry.url true now).1 }

/-- Behind the probes: the sized entries merged, and whether the recording is over. -/
def mergeProbed (s : InProgressStream) (source : InProgressSource) (askedAt now : Int)
    (lookup : RecordingLookup) (playlistText : ByteString) (pending : List M3u8SegmentEntry)
    (probed : ProbedEntries) : InProgressStream :=
  let merged :=
    ((pending.zip probed.sizes).take probed.mergedCount).foldl
      (InProgressRecordingStreamState.append source)
      { s.toInProgressRecordingStreamState with unprobeableSegment := probed.tracker }
  let statusFinished := resolveInProgressFinished lookup s.finished (probed.failedProbeCount == 0)
  let (finished, endListWaitingSince) := gateFinishedOnEndList statusFinished
    (m3u8HasEndList playlistText) s.endListWaitingSince askedAt endListGrace
  { s with
    toInProgressRecordingStreamState := { merged with finished, endListWaitingSince }
    nextHlsKeepAliveAt :=
      if 0 < probed.mergedCount then nextHlsKeepAliveDueAt now .refreshed else s.nextHlsKeepAliveAt }

/-! ## OpenInProgressRecordingStream -/

/-- A closed stream opened, with the segments that are known of its recording. -/
def seed (s : InProgressStream) (recordingId startTime : Int)
    (cached : Option InProgressRecordingSegmentCache) : InProgressStream :=
  let opened := { s with isOpen := true, recordingId, startTime }
  match cached with
  | none => opened
  | some entry =>
      { opened with
        segments := entry.segments
        totalBytes := entry.totalBytes
        totalDurationMs := entry.totalDurationMs }

/-- The end of an open. -/
def place (s : InProgressStream) (now : Int) : InProgressStream :=
  { s with position := 0, nextHlsKeepAliveAt := nextHlsKeepAliveDueAt now .refreshed }

end InProgressStream

end DispatcharrPvr
