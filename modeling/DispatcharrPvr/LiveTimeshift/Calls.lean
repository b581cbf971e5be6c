import DispatcharrPvr.LiveTimeshift.Client

/-!
# LiveTimeshift.Calls

The calls on a live timeshift, as the programs they are: a read with its retries
(`ReadLiveTimeshiftStream`), a seek, a length, an open and a close, and the
refresh of the manifest that they share.
-/

namespace DispatcharrPvr

namespace LiveClient

open Interleaving LiveStream

/-- A call's code. -/
abbrev Prog (α : Type) := Program Cmd Cmd.Answer Failure α

/-- One step. -/
def call (cmd : Cmd) : Prog cmd.Answer := Program.perform cmd

/-! ## RefreshLiveManifest -/

/-- Under `m_liveRefreshMutex`. -/
def refreshLocked (force : Bool) : Prog RefreshResult := do
  match ← call (.beginRefresh force) with
  | none => pure {}
  | some none => pure { answered := true }
  | some (some asked) =>
      let (result, manifest) ← call (.requestManifest asked)
      match manifest with
      | none => pure result
      | some manifest =>
          let answered ← call (.mergeManifest asked.session manifest)
          pure { result with answered }

/-- `RefreshLiveManifest`: one at a time. -/
def refreshLiveManifest (force : Bool) : Prog RefreshResult := do
  let locked ← if force then (call .lockRefresh).bind fun _ => pure true else call .tryLockRefresh
  if locked then
    let result ← refreshLocked force
    call .unlockRefresh
    pure result
  else pure { answered := true }

/-! ## ReadLiveTimeshiftStream -/

/-- What `ReadLiveTimeshiftStreamOnce` returns: a result with the bytes in the
caller's buffer, or `kRetrySegmentFetch`. -/
inductive Once where
  | result (result : Int) (bytes : ByteString)
  | retry
deriving DecidableEq, Repr

/-- `kMaxConsecutiveSegmentFetchFailures`. -/
def kMaxConsecutiveSegmentFetchFailures : Nat := 4

/-- `kMinSegmentFetchFailureStreak`, in milliseconds. -/
def kMinSegmentFetchFailureStreak : Int := 30000

/-- `HandleLiveTimeshiftSegmentFetchFailure`. -/
def handleLiveTimeshiftSegmentFetchFailure : Prog Once := do
  let counted ← call .countFailure
  let refresh ← refreshLiveManifest true
  let now ← call .now
  if shouldGiveUpAfterSegmentFetchFailure counted.failures refresh.fatal
      kMaxConsecutiveSegmentFetchFailures (milliseconds (now - counted.streakStart))
      kMinSegmentFetchFailureStreak then
    let (probeUrl, probePort) ← call (.giveUp counted.session)
    if probeUrl.isEmpty then pure (.result 0 [])
    else
      let reachable ← call (.probe probeUrl)
      if reachable then pure (.result 0 [])
      else
        call (.noticed counted.session)
        call (.notify
          (buildLiveFileServerLostMessage probePort (isDispatcharrOutOfReach refresh.httpStatus)))
        pure (.result 0 [])
  else
    call (.sleep (segmentFetchRetryDelayMs counted.failures))
    pure .retry

/-- The fetch of a part of a segment, under `m_liveCurlMutex`. -/
def fetchSegment (session : Nat) (read : SegmentRead) : Prog Once := do
  call .lockCurl
  let begun ← call (.beginFetch session read)
  if begun then
    let answer ← call (.perform session read)
    let fetched ← call (.endFetch session read answer)
    call .unlockCurl
    match fetched with
    | .delivered bytes => pure (.result bytes.length bytes)
    | .returns result => pure (.result result [])
    | .failed => handleLiveTimeshiftSegmentFetchFailure
  else
    call .unlockCurl
    pure (.result (-1) [])

/-- Where a read goes on with the stream let go of. -/
def follow (session : Nat) : Next → Prog Once
  | .returns result => pure (.result result [])
  | .missing => handleLiveTimeshiftSegmentFetchFailure
  | .fetch read => fetchSegment session read

/-- The loop of a wait at the tail: how many attempts are left, and the number of
this one. -/
def waitAtTail (session size : Nat) (wait : TailWait) : Nat → Nat → Prog Next
  | 0, _ => .raise .outOfAttempts
  | left + 1, attempt => do
      let refresh ← refreshLiveManifest true
      match ← call (.afterRefresh session size wait attempt refresh.answered refresh.fatal) with
      | .leave next => pure next
      | .sleep ms =>
          call (.sleep ms)
          match ← call (.afterSleep session size wait refresh.answered) with
          | some next => pure next
          | none => waitAtTail session size wait left (attempt + 1)

/-- Behind the heartbeat. -/
def readOn (session size : Nat) : Going → Prog Once
  | .next next => follow session next
  | .await wait => (waitAtTail session size wait wait.attempts.toNat 0).bind (follow session)

/-- `ReadLiveTimeshiftStreamOnce`. -/
def readLiveTimeshiftStreamOnce (size : Nat) : Prog Once := do
  let (session, arrival) ← call (.arrive size)
  match arrival with
  | .going going => readOn session size going
  | .heartbeat channelUuid viewerId accessToken =>
      call (.heartbeat channelUuid viewerId accessToken)
      let going ← call (.resume session size)
      readOn session size going

/-- The notice of `NotifyLiveStreamFatalOnce`. -/
def fatalNotice : String :=
  "This channel's timeshift buffer can't be read from Dispatcharr any more. " ++
    "Play the channel again to restart it."

/-- `NotifyLiveStreamFatalOnce`. -/
def notifyLiveStreamFatalOnce : Prog Unit := do
  let due ← call .fatalNotice
  if due then call (.notify fatalNotice) else pure ()

/-- The loop of `ReadLiveTimeshiftStream`: how often it may still go round. -/
def readLoop (size : Nat) (start : Int) : Nat → Prog (Int × ByteString)
  | 0 => .raise .outOfAttempts
  | left + 1 => do
      match ← readLiveTimeshiftStreamOnce size with
      | .result result bytes =>
          if result = 0 then notifyLiveStreamFatalOnce else pure ()
          pure (result, bytes)
      | .retry =>
          let now ← call .now
          let aborted ← call .isAborting
          match decideLiveSegmentRetryStep aborted (milliseconds (now - start))
            kLiveTailWaitSliceMs with
          | .tryAgain => readLoop size start left
          | .handBack => pure (-1, [])
          | .stop => pure (0, [])

/-- `ReadLiveTimeshiftStream`; a retry takes a quarter of the slice or more. -/
def readLiveTimeshiftStream (size : Nat) : Prog (Int × ByteString) := do
  let start ← call .now
  readLoop size start 4

/-! ## SeekLiveTimeshiftStream, GetLiveTimeshiftStreamLength -/

/-- `SeekLiveTimeshiftStream`. -/
def seekLiveTimeshiftStream (position whence : Int) : Prog Int := do
  let begun ← call .beginSeek
  if begun then
    if whence = 2 then
      let _ ← refreshLiveManifest true
      call (.seek position whence)
    else call (.seek position whence)
  else pure (-1)

/-- `PollLiveManifest`. -/
def pollLiveManifest : Prog Unit := do
  let session ← call .currentSession
  let refresh ← refreshLiveManifest false
  if refresh.fatal then call (.polledFatal session) else pure ()

/-- `GetLiveTimeshiftStreamLength`. -/
def getLiveTimeshiftStreamLength : Prog Int := do
  match ← call .beginLength with
  | some length => pure length
  | none =>
      pollLiveManifest
      call .totalBytes

/-! ## OpenLiveTimeshiftStream, CloseLiveTimeshiftStream -/

/-- `CloseLiveTimeshiftStream`. -/
def closeLiveTimeshiftStream : Prog Unit := do
  let closing ← call .beginClose
  if closing.wasOpen && !closing.channelUuid.isEmpty then
    call (.stopBuffer closing.channelUuid closing.viewerId closing.accessToken)
  else pure ()
  call .lockCurl
  call .resetClosed
  call .unlockCurl

/-- The tries of `StartTimeshiftBuffer`, 500 ms apart: whether it started, and
whether the last try may be made again. -/
def startTries (channelUuid : ByteString) : Nat → Bool → Prog (Bool × Bool)
  | 0, lastAttemptRetryable => pure (false, lastAttemptRetryable)
  | left + 1, _ => do
      let (started, retryable, accessToken) ← call (.startBuffer channelUuid)
      if started then
        if accessToken.isEmpty then pure (true, false)
        else
          call (.setToken accessToken)
          pure (true, false)
      else if retryable then
        call (.sleep 500)
        startTries channelUuid left true
      else pure (false, false)

/-- `kColdStartMaxAttempts`. -/
def kColdStartMaxAttempts : Nat := 30

/-- `kColdStartExtendedAttempts`. -/
def kColdStartExtendedAttempts : Nat := 60

/-- `ColdStartTryLimit`. -/
def coldStartTryLimit (pluginAnsweredNotReady : Bool) (baseTries extendedTries : Nat) : Nat :=
  if pluginAnsweredNotReady && decide (baseTries < extendedTries) then extendedTries else baseTries

/-- The cold start's wait for a manifest. -/
def coldStart (shortRequestTimeoutMs began : Int) : Nat → Nat → Prog Bool
  | 0, _ => pure false
  | left + 1, attempt => do
      let refresh ← refreshLiveManifest true
      if refresh.answered then pure true
      else if refresh.fatal then pure false
      else
        let now ← call .now
        let notReady := refresh.pluginAnsweredNotReady
        let tryLimit := coldStartTryLimit notReady kColdStartMaxAttempts kColdStartExtendedAttempts
        let budget := coldStartWallClockBudgetMs
          (if notReady then kColdStartExtendedAttempts else kColdStartMaxAttempts) 500
          shortRequestTimeoutMs
        if decide (tryLimit ≤ attempt + 1) ||
            !shouldKeepRetryingTransientRead (milliseconds (now - began)) budget then pure false
        else
          call (.sleep 500)
          coldStart shortRequestTimeoutMs began left (attempt + 1)

/-- An open that did not come through. -/
def abandonOpen (channelUuid viewerId : ByteString) (registered : Bool) : Prog Bool := do
  if registered then
    let accessToken ← call .accessToken
    call (.stopBuffer channelUuid viewerId accessToken)
  else pure ()
  call .reset
  pure false

/-- `OpenLiveTimeshiftStream`. -/
def openLiveTimeshiftStream (shortRequestTimeoutMs : Int) (channelUuid : ByteString) :
    Prog Bool := do
  closeLiveTimeshiftStream
  call .reset
  let viewerId ← call .generateViewerId
  call (.setViewer viewerId)
  let (started, lastAttemptRetryable) ← startTries channelUuid 20 false
  if started then
    call (.setOpen channelUuid)
    let began ← call .now
    let manifestReady ← coldStart shortRequestTimeoutMs began kColdStartExtendedAttempts 0
    if manifestReady then
      let (probeUrl, probePort) ← call .probeTarget
      let reachable ← if probeUrl.isEmpty then pure true else call (.probe probeUrl)
      if reachable then
        call .place
        pure true
      else
        call (.notify (buildTimeshiftFileServerUnreachableMessage probePort))
        abandonOpen channelUuid viewerId true
    else abandonOpen channelUuid viewerId true
  else abandonOpen channelUuid viewerId (!lastAttemptRetryable)

/-! ## Kodi's calls -/

/-- A call of Kodi's. -/
inductive Call where
  | read (size : Nat)
  | seek (position whence : Int)
  | length
  | open (channelUuid : ByteString)
  | close
deriving DecidableEq, Repr

/-- What a call runs.  An open or a close is one at a time. -/
def Call.program (shortRequestTimeoutMs : Int) : Call → Prog Unit
  | .read size => do
      let (result, bytes) ← readLiveTimeshiftStream size
      call (.answer result bytes)
  | .seek position whence => (seekLiveTimeshiftStream position whence).bind fun _ => pure ()
  | .length => getLiveTimeshiftStreamLength.bind fun _ => pure ()
  | .open channelUuid => do
      call (.enter true)
      let _ ← openLiveTimeshiftStream shortRequestTimeoutMs channelUuid
      call .leave
  | .close => do
      call (.enter false)
      closeLiveTimeshiftStream
      call .leave

/-- The add-on with the calls that Kodi makes, each on a thread of its own. -/
def machine (host : ByteString) (shortRequestTimeoutMs : Int) (calls : CallId → Call) :
    Machine Client CallId Choice Env Cmd Cmd.Answer Failure where
  exec := Client.exec host
  env := Client.env
  program t := (calls t).program shortRequestTimeoutMs

end LiveClient

end DispatcharrPvr
