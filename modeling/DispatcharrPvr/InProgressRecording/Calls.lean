import DispatcharrPvr.InProgressRecording.Client

/-!
# InProgressRecording.Calls

The calls on a recording in progress, as the programs they are: a read with its
wait at the tail and the retries of its fetch (`ReadInProgressRecordingStream`), a
seek, a length, a duration, an open and a close, and the refresh that they share.
-/

namespace DispatcharrPvr

namespace RecordingClient

open Interleaving InProgressStream

/-- A call's code. -/
abbrev Prog (α : Type) := Program Cmd Cmd.Answer Failure α

/-- One step. -/
def call (cmd : Cmd) : Prog cmd.Answer := Program.perform cmd

/-! ## RefreshInProgressRecordingManifest -/

/-- `MaybeSendInProgressHlsKeepAlive`. -/
def maybeSendInProgressHlsKeepAlive : Prog Unit := do
  match ← call .beginKeepAlive with
  | none => pure ()
  | some (session, url) =>
      match ← call (.headSegment url) with
      | none => pure ()
      | some outcome => call (.endKeepAlive session outcome)

/-- Behind the fetch of a playlist. -/
def mergeFetched (asked : AskedPlaylist) (lookup : RecordingLookup) (playlistText : ByteString) :
    Prog PlaylistRefresh := do
  match ← call (.beginProbes asked playlistText) with
  | none => pure {}
  | some (pending, probedCount) =>
      let sizes ← call (.probe pending probedCount)
      let ok ← call (.mergeProbed asked lookup playlistText pending probedCount sizes)
      pure { ok }

/-- The requests of a refresh. -/
def ask (asked : AskedPlaylist) : Prog PlaylistRefresh := do
  let lookup ← call (.lookup asked)
  if shouldSkipPlaylistAfterUnansweredLookup asked.coldStart asked.haveSegments lookup then pure {}
  else
    let (playlist, playlistHttpStatus) ← call (.fetchPlaylist asked)
    match playlist with
    | .fetched playlistText => mergeFetched asked lookup playlistText
    | .failed wasNotFound =>
        let same ← call (.withoutPlaylist asked lookup wasNotFound)
        pure { retryable := same && shouldRetryInProgressColdStart playlistHttpStatus lookup }

/-- Under `m_inProgressRefreshMutex`. -/
def refreshLocked (force coldStart : Bool) : Prog PlaylistRefresh := do
  let begun ← call .beginRefresh
  if begun then
    maybeSendInProgressHlsKeepAlive
    match ← call (.beginAsk force coldStart) with
    | none => pure {}
    | some none => pure { ok := true }
    | some (some asked) => ask asked
  else pure {}

/-- `RefreshInProgressRecordingManifest`: one at a time. -/
def refreshInProgressRecordingManifest (force coldStart : Bool) : Prog PlaylistRefresh := do
  let locked ← if force then (call .lockRefresh).bind fun _ => pure true else call .tryLockRefresh
  if locked then
    let result ← refreshLocked force coldStart
    call .unlockRefresh
    pure result
  else pure { ok := true }

/-! ## ReadInProgressRecordingStream -/

/-- The loop of a wait at the tail: how many attempts are left, and the number of
this one. -/
def waitAtTail (session : Nat) (wait : TailWait) : Nat → Nat → Prog InProgressStream.Next
  | 0, _ => .raise .outOfAttempts
  | left + 1, attempt => do
      let _ ← refreshInProgressRecordingManifest true false
      match ← call (.afterRefresh session wait attempt) with
      | .leave next => pure next
      | .sleep =>
          call (.sleep kCatchUpSleepMs)
          match ← call (.afterSleep session wait) with
          | some next => pure next
          | none => waitAtTail session wait left (attempt + 1)

/-- How often a fetch may still go on. -/
def stepsLeft (apiKeyRefreshed : Bool) (transientFailures : Nat) : Fetch → Nat
  | .perform => 3 * requestsLeft apiKeyRefreshed transientFailures
  | .refreshKey _ => 3 * requestsLeft apiKeyRefreshed transientFailures - 1
  | .retry _ => 3 * requestsLeft apiKeyRefreshed transientFailures - 2
  | .notFound => 1
  | .returns _ | .delivered .. | .unreadable => 0

/-- The loop of a fetch: whether the key was refreshed, the transient failures, and
where it is. -/
def fetchOn (session size : Nat) (read : RecordingRead) (start : Int) :
    Nat → Bool → Nat → Fetch → Prog (Int × ByteString)
  | _, _, _, .returns result => pure (result, [])
  | _, _, _, .delivered wantSize bytes => pure (wantSize, bytes)
  | _, _, _, .unreadable => do
      call (.notify unreadableNotice)
      pure (0, [])
  | 0, _, _, _ => .raise .outOfAttempts
  | left + 1, apiKeyRefreshed, transientFailures, .perform => do
      let answer ← call (.perform session read)
      let fetch ← call
        (.endFetch session size read answer apiKeyRefreshed transientFailures start)
      fetchOn session size read start left apiKeyRefreshed transientFailures fetch
  | left + 1, apiKeyRefreshed, transientFailures, .refreshKey answer => do
      let regenerated ← call .obtainKey
      let fetch ← call
        (.afterKey session size read answer regenerated transientFailures start)
      fetchOn session size read start left (apiKeyRefreshed || regenerated) transientFailures fetch
  | left + 1, apiKeyRefreshed, transientFailures, .retry delayMs => do
      call (.sleep delayMs)
      let fetch ← call (.afterDelay session)
      fetchOn session size read start left apiKeyRefreshed (transientFailures + 1) fetch
  | left + 1, apiKeyRefreshed, transientFailures, .notFound => do
      let _ ← refreshInProgressRecordingManifest false false
      let fetch ← call (.afterNotFound session)
      fetchOn session size read start left apiKeyRefreshed transientFailures fetch

/-- The fetch of a segment, under `m_inProgressCurlMutex`. -/
def fetchSegment (session size : Nat) (read : RecordingRead) : Prog (Int × ByteString) := do
  call .lockCurl
  let (start, fetch) ← call (.beginFetch session size read)
  let answer ← fetchOn session size read start (stepsLeft false 0 .perform) false 0 fetch
  call .unlockCurl
  pure answer

/-- Where a read goes on with the stream let go of. -/
def follow (session size : Nat) : InProgressStream.Next → Prog (Int × ByteString)
  | .returns result => pure (result, [])
  | .read read => fetchSegment session size read

/-- `ReadInProgressRecordingStream`. -/
def readInProgressRecordingStream (size : Nat) : Prog (Int × ByteString) := do
  let (session, going) ← call (.arrive size)
  match going with
  | .next next => follow session size next
  | .await wait => (waitAtTail session wait wait.attempts.toNat 0).bind (follow session size)

/-! ## SeekInProgressRecordingStream, the length and the duration -/

/-- `SeekInProgressRecordingStream`. -/
def seekInProgressRecordingStream (position whence : Int) : Prog Int := do
  let begun ← call .beginSeek
  if begun then
    if whence = 2 then
      let _ ← refreshInProgressRecordingManifest true false
      call (.seek position whence)
    else call (.seek position whence)
  else pure (-1)

/-- `GetInProgressRecordingStreamLength`. -/
def getInProgressRecordingStreamLength : Prog Int := do
  let isOpen ← call .isOpen
  if isOpen then
    let _ ← refreshInProgressRecordingManifest false false
    call .totalBytes
  else pure (-1)

/-- `GetInProgressRecordingStreamDurationMs`. -/
def getInProgressRecordingStreamDurationMs : Prog Int := do
  let isOpen ← call .isOpen
  if isOpen then
    let _ ← refreshInProgressRecordingManifest false false
    call .totalDurationMs
  else pure 0

/-! ## OpenInProgressRecordingStream, CloseInProgressRecordingStream -/

/-- `CloseInProgressRecordingStream`. -/
def closeInProgressRecordingStream : Prog Unit := do
  call .lockCurl
  call .reset
  call .unlockCurl

/-- `kColdStartMaxAttempts` of a recording in progress. -/
def kColdStartMaxAttempts : Nat := 90

/-- `kColdStartSleepMs`. -/
def kColdStartSleepMs : Int := 500

/-- How a cold start ends: with a segment, without one, or for good, where the playlist
may be gone because the recording is over. -/
inductive ColdStart where
  | haveSegment
  | stopWaiting
  | failed (finishedPlaylistGone : Bool)
deriving DecidableEq, Repr

/-- The cold start's wait for a segment. -/
def coldStart (budget began : Int) : Nat → Prog ColdStart
  | 0 => pure .stopWaiting
  | left + 1 => do
      let refresh ← refreshInProgressRecordingManifest true true
      let (haveSegments, finished) ← call .coldStartLook
      match decideInProgressColdStartStep refresh.ok refresh.retryable haveSegments finished with
      | .ready => pure .haveSegment
      | .finishedEmpty => pure .stopWaiting
      | .fail => pure (.failed false)
      | .finishedPlaylistGone => pure (.failed true)
      | .wait =>
          let now ← call .now
          if shouldKeepRetryingTransientRead (milliseconds (now - began)) budget then
            call (.sleep kColdStartSleepMs)
            coldStart budget began left
          else pure .stopWaiting

/-- `OpenInProgressRecordingStream`: whether it came through, and
`finishedPlaylistGoneOut`. -/
def openInProgressRecordingStream (shortRequestTimeoutMs recordingId startTime : Int) :
    Prog (Bool × Bool) := do
  closeInProgressRecordingStream
  call (.setOpen recordingId startTime)
  let began ← call .now
  let budget :=
    coldStartWallClockBudgetMs kColdStartMaxAttempts kColdStartSleepMs shortRequestTimeoutMs
  let started ← coldStart budget began kColdStartMaxAttempts
  match started with
  | .failed finishedPlaylistGone =>
      call .reset
      pure (false, finishedPlaylistGone)
  | _ =>
      let (_, finishedNow) ← call .coldStartLook
      if started != .haveSegment && !finishedNow then
        call .reset
        pure (false, false)
      else
        call .place
        pure (true, false)

/-! ## Kodi's calls -/

/-- A call of Kodi's. -/
inductive Call where
  | read (size : Nat)
  | seek (position whence : Int)
  | length
  | duration
  | open (recordingId startTime : Int)
  | close
deriving DecidableEq, Repr

/-- What a call runs.  An open or a close is one at a time. -/
def Call.program (shortRequestTimeoutMs : Int) : Call → Prog Unit
  | .read size => do
      let (result, bytes) ← readInProgressRecordingStream size
      call (.answer result bytes)
  | .seek position whence =>
      (seekInProgressRecordingStream position whence).bind fun _ => pure ()
  | .length => getInProgressRecordingStreamLength.bind fun _ => pure ()
  | .duration => getInProgressRecordingStreamDurationMs.bind fun _ => pure ()
  | .open recordingId startTime => do
      call .enter
      let _ ← openInProgressRecordingStream shortRequestTimeoutMs recordingId startTime
      call .leave
  | .close => do
      call .enter
      closeInProgressRecordingStream
      call .leave

/-- The add-on with the calls that Kodi makes, each on a thread of its own. -/
def machine (server : Server) (calls : CallId → Call) :
    Machine Client CallId Choice Env Cmd Cmd.Answer Failure where
  exec := Client.exec server
  env := Client.env
  program t := (calls t).program server.shortRequestTimeoutMs

end RecordingClient

end DispatcharrPvr
