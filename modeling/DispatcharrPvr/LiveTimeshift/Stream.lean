import DispatcharrPvr.PluginCalls
import DispatcharrPvr.StreamReads
import DispatcharrPvr.StreamSeek

/-!
# LiveTimeshift.Stream

The live timeshift stream as its lock guards it (`LiveTimeshiftStreamState`),
and what each stretch of `DispatcharrClient.cpp` that holds `m_liveStateMutex`
makes of it.  A stretch ends where the lock is released for a network call or a
sleep; the time it looks at is one time `now`.
-/

namespace DispatcharrPvr

/-- `LiveTimeshiftStreamState`: its address space and the other members. -/
structure LiveStream extends LiveTimeshiftStreamState where
  isOpen : Bool := false
  channelUuid : ByteString := []
  viewerId : ByteString := []
  accessToken : ByteString := []
  segmentBaseUrl : ByteString := []
  fileServerPort : Int := 0
  position : Int := 0
  lastManifestFetch : Int := 0
  lastSeekTime : Int := 0
  tail : TailReader := {}
  lastHeartbeatSent : Int := 0
  /-- Whether there is a persistent handle. -/
  curl : Bool := false
  ended : Bool := false
  endedLogged : Bool := false
  fatal : Bool := false
  fatalNotified : Bool := false
  consecutiveSegmentFetchFailures : Nat := 0
  firstSegmentFetchFailureAt : Int := 0
deriving DecidableEq, Repr

/-! ## CatchUpUtil.h, LiveEdgeMargin.h, Staleness.h -/

/-- `EstimateSegmentDurationMs`. -/
def estimateSegmentDurationMs (totalDurationMs : Int) (segments : List LiveTimeshiftSegmentInfo) :
    Int :=
  let sampleCount := min 5 segments.length
  let avgSegmentDurationMs :=
    match segments[segments.length - sampleCount]? with
    | none => 6000
    | some first =>
        let sumMs := totalDurationMs - first.timeOffsetMs
        if 0 < sumMs then sumMs.tdiv sampleCount else 6000
  min (max avgSegmentDurationMs 1500) 60000

theorem estimateSegmentDurationMs_bounds (totalDurationMs : Int)
    (segments : List LiveTimeshiftSegmentInfo) :
    1500 ≤ estimateSegmentDurationMs totalDurationMs segments ∧
      estimateSegmentDurationMs totalDurationMs segments ≤ 60000 := by
  unfold estimateSegmentDurationMs
  dsimp only
  omega

/-- There is always a first attempt. -/
theorem computeCatchUpAttempts_pos (likelySeekProbe : Bool) (totalDurationMs : Int)
    (segments : List LiveTimeshiftSegmentInfo) :
    0 < computeCatchUpAttempts likelySeekProbe
      (estimateSegmentDurationMs totalDurationMs segments) kCatchUpSleepMs := by
  have hbounds := estimateSegmentDurationMs_bounds totalDurationMs segments
  unfold computeCatchUpAttempts
  split
  · decide
  · have := Int.tdiv_nonneg (a := estimateSegmentDurationMs totalDurationMs segments * 3)
      (b := kCatchUpSleepMs) (by omega) (by decide)
    omega

/-- `ComputeCatchUpWallClockBudgetMs`. -/
def computeCatchUpWallClockBudgetMs (attempts catchUpSleepMs : Int) : Int :=
  min (max attempts 0 * catchUpSleepMs * 2) 120000

/-- `kLiveTailWaitSliceMs`. -/
def kLiveTailWaitSliceMs : Int := 1000

/-- `ComputeTailWaitSleepMs`. -/
def computeTailWaitSleepMs (waitedMs normalBudgetMs baseSleepMs : Int) : Int :=
  if waitedMs < normalBudgetMs then baseSleepMs else max baseSleepMs kLiveTailWaitSliceMs

/-- `ComputeLiveEdgeStartPosition`. -/
def computeLiveEdgeStartPosition (segments : List LiveTimeshiftSegmentInfo) (totalBytes : Int)
    (marginSegments : Nat) : Int :=
  ((segments[segments.length - marginSegments]?).map (·.byteOffset)).getD totalBytes

/-- `ShouldThrottleRefresh`. -/
def shouldThrottleRefresh (force : Bool) (lastRefresh now interval : Int) : Bool :=
  !force && lastRefresh != 0 && decide (now - lastRefresh < interval)

/-! ## what a read finds -/

/-- A wait at the tail: `likelySeekProbe`, `catchUpAttempts`, `catchUpStart`. -/
structure TailWait where
  likelySeekProbe : Bool
  attempts : Int
  startedAt : Int
deriving DecidableEq, Repr

/-- The budget of a wait. -/
def TailWait.budgetMs (wait : TailWait) (lastRefreshAnswered : Bool) : Int :=
  computeLiveTailWaitBudgetMs wait.likelySeekProbe (wait.attempts * kCatchUpSleepMs)
    lastRefreshAnswered

/-- A part of a segment chosen to be read, from the position it is chosen for. -/
structure SegmentRead where
  position : Int
  segment : LiveTimeshiftSegmentInfo
  wantSize : Nat
  url : ByteString
deriving DecidableEq, Repr

namespace SegmentRead

def offsetInSegment (read : SegmentRead) : Int := read.position - read.segment.byteOffset

/-- The text of the `Range` header, after its unit. -/
def range (read : SegmentRead) : ByteString :=
  toByteString read.offsetInSegment ++ ascii "-" ++
    toByteString (read.offsetInSegment + read.wantSize - 1)

end SegmentRead

/-- Where a read lets go of the stream: it returns, it has found a gap, or it
fetches a part of a segment. -/
inductive Next where
  | returns (result : Int)
  | missing
  | fetch (read : SegmentRead)
deriving DecidableEq, Repr

/-- The same, or a wait at the tail. -/
inductive Going where
  | next (next : Next)
  | await (wait : TailWait)
deriving DecidableEq, Repr

/-- The arrival of a read; a heartbeat is sent with the stream let go of. -/
inductive Arrival where
  | going (going : Going)
  | heartbeat (channelUuid viewerId accessToken : ByteString)
deriving DecidableEq, Repr

/-- What becomes of one attempt of a wait. -/
inductive Attempt where
  | leave (next : Next)
  | sleep (ms : Int)
deriving DecidableEq, Repr

/-- An answer to a fetch: how the transfer ended, its status, the total of its
`Content-Range`, -1 for none, and the part of the body that was kept. -/
structure FetchAnswer where
  transferOk : Bool
  httpCode : Int
  serverReportedTotal : Int := -1
  written : ByteString := []
deriving DecidableEq, Repr

/-- What becomes of a fetch. -/
inductive Fetched where
  | delivered (bytes : ByteString)
  | returns (result : Int)
  /-- It goes to `HandleLiveTimeshiftSegmentFetchFailure`. -/
  | failed
deriving DecidableEq, Repr

/-- `kHeartbeatInterval`, 10 s. -/
def kHeartbeatInterval : Int := seconds 10

/-- `kMinRefreshInterval`, 500 ms. -/
def kMinRefreshInterval : Int := 500000000

namespace LiveStream

/-! ## ReadLiveTimeshiftStreamOnce -/

/-- `IsAtEndedTail`. -/
def isAtEndedTail (s : LiveStream) : Bool := s.ended && decide (s.totalBytes ≤ s.position)

/-- From the tail check on: the part of a segment to fetch. -/
def choose (s : LiveStream) (size : Nat) (gaveUpOnSeekProbe : Bool) : Next :=
  if s.totalBytes ≤ s.position then .returns (liveTailGiveUpResult gaveUpOnSeekProbe)
  else
    match findSegmentContainingPosition s.position s.segments with
    | none => .missing
    | some seg =>
        match segmentReadSize (s.position - seg.byteOffset) seg.byteSize size with
        | none => .returns 0
        | some wantSize =>
            .fetch
              { position := s.position
                segment := seg
                wantSize := wantSize.toNat
                url := buildTimeshiftSegmentUrl s.segmentBaseUrl (Utf8.encode seg.filename.toList)
                  s.accessToken s.viewerId false }

/-- Behind the loop of a wait at the tail. -/
def leaveTail (s : LiveStream) (now : Int) (size : Nat) (wait : TailWait)
    (lastRefreshAnswered : Bool) : LiveStream × Next :=
  if s.fatal then (s, .returns 0)
  else if s.isAtEndedTail then (s, .returns 0)
  else
    let caughtUp := decide (s.position < s.totalBytes)
    if !caughtUp && decideTailWaitOutcome wait.likelySeekProbe (s.tail.tailWait.waitedMs now)
        (wait.budgetMs lastRefreshAnswered) == .retry then
      ({ s with tail.tailWait := s.tail.tailWait.touch now }, .returns (-1))
    else
      let left :=
        { s with
          tail :=
            { tailWait := {}
              lastShortGiveUpPosition :=
                computeShortGiveUpPosition wait.likelySeekProbe caughtUp s.position } }
      (left, left.choose size (wait.likelySeekProbe && !caughtUp))

/-- Behind the heartbeat. -/
def goOn (s : LiveStream) (now : Int) (size : Nat) : LiveStream × Going :=
  if s.isAtEndedTail then ({ s with endedLogged := true }, .next (.returns 0))
  else if s.totalBytes ≤ s.position then
    let likelySeekProbe :=
      isLikelySeekProbe s.position s.tail.lastShortGiveUpPosition s.lastSeekTime now kSeekProbeWindow
    let attempts := computeCatchUpAttempts likelySeekProbe
      (estimateSegmentDurationMs s.totalDurationMs s.segments) kCatchUpSleepMs
    let entered := { s with tail.tailWait := s.tail.tailWait.enter s.position now }
    (entered, .await { likelySeekProbe, attempts, startedAt := now })
  else (s, .next (s.choose size false))

/-- A position behind what the buffer still holds goes on from there. -/
def continueFromOldest (s : LiveStream) : LiveStream :=
  if s.position < s.firstAvailableLiveByteOffset then
    { s with position := s.firstAvailableLiveByteOffset }
  else s

/-- Whether a read sends a heartbeat. -/
def heartbeatDue (s : LiveStream) (now : Int) : Bool :=
  !s.viewerId.isEmpty &&
    (s.lastHeartbeatSent == 0 || decide (kHeartbeatInterval ≤ now - s.lastHeartbeatSent))

/-- From the start of a read, up to the heartbeat if one is due. -/
def arrive (s : LiveStream) (now : Int) (size : Nat) : LiveStream × Arrival :=
  if !s.isOpen || size == 0 then (s, .going (.next (.returns 0)))
  else if s.fatal then (s, .going (.next (.returns 0)))
  else
    let here := s.continueFromOldest
    if here.heartbeatDue now then
      ({ here with lastHeartbeatSent := now },
        .heartbeat here.channelUuid here.viewerId here.accessToken)
    else ((here.goOn now size).1, .going (here.goOn now size).2)

/-- An attempt of a wait, after its refresh. -/
def afterRefresh (s : LiveStream) (now : Int) (size : Nat) (wait : TailWait) (attempt : Nat)
    (answered refreshFatal : Bool) : LiveStream × Attempt :=
  let elapsed := milliseconds (now - wait.startedAt)
  let s := { s with fatal := s.fatal || refreshFatal }
  if refreshFatal || decide (s.position < s.totalBytes) || s.ended ||
      decide (computeCatchUpWallClockBudgetMs wait.attempts kCatchUpSleepMs ≤ elapsed) ||
      decide (kLiveTailWaitSliceMs ≤ elapsed) || decide (wait.attempts ≤ attempt + 1) then
    ((s.leaveTail now size wait answered).1, .leave (s.leaveTail now size wait answered).2)
  else
    (s, .sleep (computeTailWaitSleepMs (s.tail.tailWait.waitedMs now)
      (wait.attempts * kCatchUpSleepMs) kCatchUpSleepMs))

/-- The head of the loop, after a sleep: nothing when the next attempt follows. -/
def afterSleep (s : LiveStream) (now : Int) (size : Nat) (wait : TailWait) (answered : Bool) :
    LiveStream × Option Next :=
  if s.totalBytes ≤ s.position then (s, none)
  else ((s.leaveTail now size wait answered).1, some (s.leaveTail now size wait answered).2)

/-- After a fetch, by what its answer is taken for; the stream may be another one
than it was chosen for, or somewhere else. -/
def endFetch (s : LiveStream) (stillThere : Bool) (read : SegmentRead) (answer : FetchAnswer) :
    LiveStream × Fetched :=
  match classifyLiveSegmentResponse answer.transferOk answer.httpCode read.offsetInSegment
    answer.serverReportedTotal read.segment.byteSize with
  -- a connection that went stale is not used again
  | .transportFailure => ({ s with curl := false }, .failed)
  | .segmentGone | .unexpectedStatus => (s, .failed)
  | .rangeIgnored | .sizeMismatch => ({ s with fatal := true }, .returns 0)
  | .ok =>
      if stillThere then
        ({ s with
            consecutiveSegmentFetchFailures := 0
            firstSegmentFetchFailureAt := 0
            position := s.position + answer.written.length },
          .delivered answer.written)
      else (s, .returns (-1))

/-! ## HandleLiveTimeshiftSegmentFetchFailure -/

/-- One more failure of the streak. -/
def countFailure (s : LiveStream) (now : Int) : LiveStream :=
  { s with
    consecutiveSegmentFetchFailures := s.consecutiveSegmentFetchFailures + 1
    firstSegmentFetchFailureAt :=
      if s.consecutiveSegmentFetchFailures = 0 then now else s.firstSegmentFetchFailureAt }

/-! ## RefreshLiveManifest -/

/-- What a refresh asks for. -/
structure Asked where
  session : Nat
  channelUuid : ByteString
  viewerId : ByteString
  accessToken : ByteString
deriving DecidableEq, Repr

/-- Before a refresh: none without a stream, none when the last was just now. -/
def beginRefresh (s : LiveStream) (now : Int) (session : Nat) (force : Bool) :
    LiveStream × Option (Option Asked) :=
  if !s.isOpen then (s, none)
  else if shouldThrottleRefresh force s.lastManifestFetch now kMinRefreshInterval then (s, some none)
  else
    ({ s with lastManifestFetch := now },
      some (some
        { session
          channelUuid := s.channelUuid
          viewerId := s.viewerId
          accessToken := s.accessToken }))

/-- A manifest that was accepted. -/
structure Manifest where
  segmentBaseUrl : ByteString
  httpPort : Int
  segments : List Json
  ended : Bool

/-- How a refresh ended: what it returns, and its output parameters. -/
structure RefreshResult where
  answered : Bool := false
  fatal : Bool := false
  pluginAnsweredNotReady : Bool := false
  httpStatus : Int := -1
deriving DecidableEq, Repr

/-- The items of an array. -/
def items? : Option Json → Option (List Json)
  | some (.array items) => some items
  | _ => none

/-- `RefreshLiveManifest` on the answer to its request, `none` when it failed. -/
def readManifest (host : ByteString) (response : Option Json) (httpStatus : Int) :
    RefreshResult × Option Manifest :=
  match response with
  | none => ({ httpStatus }, none)
  | some response =>
      match unwrapPluginRunResult response "timeshift_buffer" with
      | (result, some _) =>
          let fatal := fieldOrBool result "fatal" false
          ({ fatal
             pluginAnsweredNotReady := !fatal && fieldOrString result "status" "" == "error"
             httpStatus }, none)
      | (result, none) =>
          let httpPort := fieldOrInt result "http_port" 0
          let routePrefix := fieldOrBytes result "segment_route_prefix"
          match items? (result.at? "segments") with
          | none => ({ httpStatus }, none)
          | some segments =>
              if isValidTimeshiftPort httpPort && isValidTimeshiftRoute routePrefix then
                ({ answered := true, httpStatus },
                  some
                    { segmentBaseUrl := buildTimeshiftSegmentBaseUrl host httpPort routePrefix
                      httpPort
                      segments
                      ended := fieldOrBool result "ended" false })
              else ({ httpStatus }, none)

/-- What a manifest makes of the stream it was asked for. -/
def mergeManifest (s : LiveStream) (manifest : Manifest) : LiveStream :=
  { s with
    toLiveTimeshiftStreamState := s.refreshLiveManifest manifest.segments
    segmentBaseUrl := manifest.segmentBaseUrl
    fileServerPort := manifest.httpPort
    ended := s.ended || manifest.ended }

/-! ## OpenLiveTimeshiftStream -/

/-- The end of an open: the address space from the live edge on, read from its start. -/
def place (s : LiveStream) : LiveStream :=
  let trimmed := trimToTrailingLiveEdgeMargin s.toLiveTimeshiftStreamState liveEdgeMarginSegments
  { s with
    toLiveTimeshiftStreamState := trimmed
    position := computeLiveEdgeStartPosition trimmed.segments trimmed.totalBytes
      liveEdgeMarginSegments }

end LiveStream

end DispatcharrPvr
