import DispatcharrPvr.Lib.ReadLog
import DispatcharrPvr.Lib.Runs
import DispatcharrPvr.StreamReads
import DispatcharrPvr.StreamSeek

/-!
# RecordingStream

A completed recording as it is played (`OpenRecordingStream`,
`ReadRecordingStream`, `SeekRecordingStream`, `CloseRecordingStream`): one player
reads it, one call after the other.  What the server answers to a request, and
how long that takes, comes with the call.
-/

namespace DispatcharrPvr

open ReadLog

/-- `RecordingStreamState`. -/
structure RecordingStream where
  isOpen : Bool := false
  url : ByteString := []
  length : Int := -1
  position : Int := 0
  /-- Whether there is a persistent handle. -/
  curl : Bool := false
  rangeIgnored : Bool := false
  permanentReadFailures : PermanentReadFailureTracker := {}
deriving DecidableEq, Repr

/-- The stream, with the clock and what the viewer has been told of it.  The rest is
what has become of it: the number of its session, the moves of its position, and
the failures since the last bytes. -/
structure RecordingReader where
  stream : RecordingStream := {}
  clock : Int := 1
  notices : List String := []
  session : Nat := 0
  moves : List (Move Unit UInt8) := []
  failures : List Int := []
deriving DecidableEq, Repr

namespace RecordingReader

/-! ## OpenRecordingStream, CloseRecordingStream, SeekRecordingStream -/

/-- `CloseRecordingStream`. -/
def closeRecordingStream (r : RecordingReader) : RecordingReader :=
  { r with
    stream := {}
    notices := []
    session := r.session + 1
    moves := []
    failures := [] }

/-- What a probe of the file comes to, and whether `ObtainApiKey` succeeds after
it. -/
structure Probe where
  handleReady : Bool := true
  transferOk : Bool := true
  sizeLimitExceeded : Bool := false
  /-- `curl_easy_strerror`. -/
  transferError : String := ""
  httpCode : Int := 206
  contentType : ByteString := []
  effectiveUrl : Option ByteString := none
  totalLength : Int := -1
  obtainsKey : Bool := false
deriving DecidableEq, Repr

/-- What an attempt to open comes to, where it is not made again. -/
def settleOpen (r : RecordingReader) (notifyViewer : Bool) (url : ByteString) (probe : Probe) :
    RecordingOpenOutcome → RecordingReader × Except String Unit
  | .transferFailed => (r, .error ("HTTP request failed: " ++ probe.transferError))
  | .refreshApiKeyAndRetry | .httpFailure =>
      let userMessage := if notifyViewer then describeRecordingOpenFailure probe.httpCode else ""
      (if userMessage.isEmpty then r else { r with notices := r.notices ++ [userMessage] },
        .error ("Dispatcharr returned HTTP " ++ toString probe.httpCode ++ " opening recording stream"))
  | .inProgressRecording =>
      (r,
        .error ("This recording is still in progress; playback of in-progress " ++
          "recordings isn't supported yet, only completed ones"))
  | .ok =>
      ({ r with
          stream :=
            { r.stream with
              isOpen := true
              url := probe.effectiveUrl.getD url
              length := probe.totalLength
              position := 0 }
          moves := r.moves ++ [.jump 0] },
        .ok ())

/-- The attempts of an open. -/
def openLoop (notifyViewer : Bool) (url : ByteString) :
    Nat → Bool → List Probe → RecordingReader → Option (RecordingReader × Except String Unit)
  | 0, _, _, r =>
      some
        (r, .error ("Dispatcharr returned HTTP 401 opening recording stream even after " ++
          "refreshing the API key"))
  | _ + 1, _, [], _ => none
  | left + 1, apiKeyRefreshed, probe :: probes, r =>
      if !probe.handleReady then some (r, .error "Failed to initialise libcurl")
      else
        let outcome := fun apiKeyAlreadyRefreshed =>
          classifyRecordingOpenResponse probe.transferOk probe.sizeLimitExceeded probe.httpCode
            apiKeyAlreadyRefreshed probe.contentType (probe.effectiveUrl.getD url)
        if outcome apiKeyRefreshed = .refreshApiKeyAndRetry then
          if probe.obtainsKey then openLoop notifyViewer url left true probes r
          else some (r.settleOpen notifyViewer url probe (outcome true))
        else some (r.settleOpen notifyViewer url probe (outcome apiKeyRefreshed))

/-- `OpenRecordingStream`. -/
def openRecordingStream (notifyViewer : Bool) (url : ByteString) (probes : List Probe)
    (r : RecordingReader) : Option (RecordingReader × Except String Unit) :=
  openLoop notifyViewer url 2 false probes r.closeRecordingStream

/-- `SeekRecordingStream`. -/
def seekRecordingStream (position whence : Int) (r : RecordingReader) : RecordingReader × Int :=
  if !r.stream.isOpen then (r, -1)
  else
    let newPos := resolveSeekPosition position whence r.stream.position r.stream.length
    if newPos < 0 then (r, -1)
    else
      ({ r with
          stream.position := newPos
          moves := r.moves ++ [.jump newPos] },
        newPos)

/-! ## ReadRecordingStream -/

/-- A request of a read: what it comes to, whether `ObtainApiKey` succeeds after it,
whether `m_abortRequests` is set then, and how long it takes. -/
structure Exchange where
  handleReady : Bool := true
  transferOk : Bool := true
  httpCode : Int := 206
  serverReportedTotal : Int := -1
  chunks : List ByteString := []
  obtainsKey : Bool := false
  aborted : Bool := false
  elapsed : Nat := 0
  /-- How much longer than asked a sleep takes. -/
  longer : Nat := 0
deriving DecidableEq, Repr

/-- The notice of a server that ignores the range. -/
def rangeIgnoredNotice : String :=
  "This recording can't be played: the server (or a proxy in front of it) doesn't " ++
    "support partial downloads."

/-- `FailRecordingReadPermanently`. -/
def failRecordingReadPermanently (r : RecordingReader) : RecordingReader × Int :=
  let (tracker, ended) := r.stream.permanentReadFailures.record r.clock
  let failed :=
    { r with stream.permanentReadFailures := tracker, failures := r.clock :: r.failures }
  if ended then ({ failed with notices := r.notices ++ [unreadableNotice] }, 0) else (failed, -1)

/-- What becomes of a try: it is made again, or the read is over. -/
inductive Pass where
  | again (apiKeyRefreshed : Bool) (transientFailures : Nat)
  | returns (result : Int) (bytes : ByteString)
deriving DecidableEq, Repr

/-- By what an answer is taken for. -/
def settleRead (r : RecordingReader) (start : Int) (apiKeyRefreshed : Bool)
    (transientFailures : Nat) (x : Exchange) (transferOk : Bool) (written : ByteString) :
    RecordingReadOutcome → RecordingReader × Pass
  | .refreshApiKeyAndRetry | .failPermanently | .fileChanged =>
      let (failed, result) := r.failRecordingReadPermanently
      (failed, .returns result [])
  | .retryTransient =>
      -- a connection that went stale is not used again
      let dropped := { r with stream.curl := r.stream.curl && transferOk }
      let failures := transientFailures + 1
      let waited := milliseconds (r.clock - start)
      if !x.aborted && shouldKeepRetryingTransientRead waited kTransientReadBudget then
        ({ dropped with clock := r.clock + segmentFetchRetryDelayMs failures * 1000000 + x.longer },
          .again apiKeyRefreshed failures)
      else (dropped, .returns (-1) [])
  | .rangeIgnored =>
      ({ r with
          stream.rangeIgnored := true
          notices := r.notices ++ [rangeIgnoredNotice] },
        .returns 0 [])
  | .ok =>
      ({ r with
          stream.position := r.stream.position + written.length
          stream.permanentReadFailures := r.stream.permanentReadFailures.reset
          moves := r.moves ++ [.deliver () written]
          failures := [] },
        .returns written.length written)

/-- One try. -/
def pass (r : RecordingReader) (size : Nat) (start : Int) (apiKeyRefreshed : Bool)
    (transientFailures : Nat) (x : Exchange) : RecordingReader × Pass :=
  if !r.stream.curl && !x.handleReady then (r, .returns (-1) [])
  else
    let r := { r with stream.curl := true, clock := r.clock + x.elapsed }
    let sink : FixedBufferSink := { capacity := size, abortWhenFull := true }
    let (filled, completed) := sink.transfer x.chunks
    -- a transfer that the full buffer ended is not a failure
    let transferOk := x.transferOk || !completed
    let outcome := fun apiKeyAlreadyRefreshed =>
      classifyRecordingReadResponse transferOk x.httpCode apiKeyAlreadyRefreshed r.stream.position
        r.stream.length x.serverReportedTotal
    if outcome apiKeyRefreshed = .refreshApiKeyAndRetry then
      if x.obtainsKey then (r, .again true transientFailures)
      else
        r.settleRead start apiKeyRefreshed transientFailures x transferOk filled.written
          (outcome true)
    else
      r.settleRead start apiKeyRefreshed transientFailures x transferOk filled.written
        (outcome apiKeyRefreshed)

/-- The loop of a read over what its requests come to; none when it makes more of
them. -/
def readLoop (size : Nat) (start : Int) :
    Bool → Nat → List Exchange → RecordingReader → Option (RecordingReader × Int × ByteString)
  | _, _, [], _ => none
  | apiKeyRefreshed, transientFailures, x :: script, r =>
      match r.pass size start apiKeyRefreshed transientFailures x with
      | (r', .again apiKeyRefreshed' transientFailures') =>
          readLoop size start apiKeyRefreshed' transientFailures' script r'
      | (r', .returns result bytes) => some (r', result, bytes)

/-- `ReadRecordingStream`: its result, and what it has put into the buffer. -/
def readRecordingStream (size : Nat) (script : List Exchange) (r : RecordingReader) :
    Option (RecordingReader × Int × ByteString) :=
  if !r.stream.isOpen || size == 0 then some (r, 0, [])
  else if 0 ≤ r.stream.length ∧ r.stream.length ≤ r.stream.position then some (r, 0, [])
  else
    match readRangeEnd r.stream.position size with
    | none => some (r, -1, [])
    | some _ =>
        if r.stream.rangeIgnored then some (r, 0, [])
        else if r.stream.permanentReadFailures.ended then some (r, 0, [])
        else readLoop size r.clock false 0 script r

/-! ## a player -/

/-- A call of the player's. -/
inductive Op where
  | open (notifyViewer : Bool) (url : ByteString) (probes : List Probe)
  | close
  | seek (position whence : Int)
  | read (size : Nat) (script : List Exchange)
  /-- Time passes between two calls. -/
  | wait (elapsed : Nat)
deriving DecidableEq, Repr

/-- What a call makes of the reader. -/
def step (r : RecordingReader) : Op → Option RecordingReader
  | .open notifyViewer url probes =>
      (r.openRecordingStream notifyViewer url probes).map Prod.fst
  | .close => some r.closeRecordingStream
  | .seek position whence => some (r.seekRecordingStream position whence).1
  | .read size script => (r.readRecordingStream size script).map Prod.fst
  | .wait elapsed => some { r with clock := r.clock + elapsed }

end RecordingReader

end DispatcharrPvr
