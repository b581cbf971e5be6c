import DispatcharrPvr.Lib.Interleaving
import DispatcharrPvr.Lib.ReadLog
import DispatcharrPvr.LiveTimeshift.AddressSpace
import DispatcharrPvr.LiveTimeshift.Stream

/-!
# LiveTimeshift.Client

What the calls on a live timeshift share (`DispatcharrClient`): the stream with
its session number, the two mutexes that are held over a network call, and the
clock.  Each command is one step: a stretch that holds `m_liveStateMutex`, a
network call, a mutex, or a sleep.  Between any two of them the other calls, on
their own threads, may take any number of steps.

A `Record` keeps what became of a session: every segment its address space has
had, the moves of its position, and the signs that its buffer works or not.
-/

namespace DispatcharrPvr

namespace LiveClient

open Interleaving LiveStream ReadLog

/-- A call of Kodi's, by its number. -/
abbrev CallId := Nat

/-! ## what is shared -/

/-- What shows whether a buffer can be read. -/
inductive Sign where
  /-- A failed fetch is counted. -/
  | failed (counted : Int)
  | delivered
  /-- A manifest asked for in this session was answered as fatal. -/
  | fatalManifest
  /-- A fetch was answered with something else than was asked for. -/
  | misread (outcome : LiveSegmentOutcome)
deriving DecidableEq, Repr

/-- What has become of one address space; the latest sign first. -/
structure Record where
  session : Nat := 0
  /-- Its open is through. -/
  placed : Bool := false
  tape : List LiveTimeshiftSegmentInfo := []
  moves : List (Move CallId UInt8) := []
  signs : List Sign := []

/-- The members of `DispatcharrClient` that the calls use, and what has become of
them. -/
structure Client where
  stream : LiveStream := {}
  session : Nat := 0
  clock : Int := 1
  /-- `m_abortRequests`. -/
  aborting : Bool := false
  /-- `m_liveCurlMutex`. -/
  curlOwner : Option CallId := none
  /-- `m_liveRefreshMutex`. -/
  refreshOwner : Option CallId := none
  /-- The open or close that is under way, and whether it is an open. -/
  switching : Option (CallId × Bool) := none
  record : Record := {}
  past : List Record := []
  answers : List (CallId × Int × ByteString) := []

/-! ## commands -/

/-- How a failure was counted. -/
structure CountedFailure where
  session : Nat
  failures : Nat
  streakStart : Int
deriving DecidableEq, Repr

/-- What a close leaves to be stopped. -/
structure Closing where
  wasOpen : Bool
  channelUuid : ByteString
  viewerId : ByteString
  accessToken : ByteString
deriving DecidableEq, Repr

/-- One step of a call. -/
inductive Cmd where
  /-- `steady_clock::now`. -/
  | now
  | sleep (ms : Int)
  /-- Whether `m_abortRequests` is set. -/
  | isAborting
  | lockCurl
  | unlockCurl
  | lockRefresh
  | tryLockRefresh
  | unlockRefresh
  | notify (message : String)
  -- the refresh
  | beginRefresh (force : Bool)
  | requestManifest (asked : Asked)
  | mergeManifest (session : Nat) (manifest : Manifest)
  -- a read
  | arrive (size : Nat)
  /-- `SendTimeshiftHeartbeat`. -/
  | heartbeat (channelUuid viewerId accessToken : ByteString)
  | resume (session : Nat) (size : Nat)
  | afterRefresh (session : Nat) (size : Nat) (wait : TailWait) (attempt : Nat)
      (answered refreshFatal : Bool)
  | afterSleep (session : Nat) (size : Nat) (wait : TailWait) (answered : Bool)
  /-- Whether the transfer begins. -/
  | beginFetch (session : Nat) (read : SegmentRead)
  | perform (session : Nat) (read : SegmentRead)
  | endFetch (session : Nat) (read : SegmentRead) (answer : FetchAnswer)
  | countFailure
  /-- The stream is given up: the URL to probe and its port. -/
  | giveUp (session : Nat)
  /-- `ProbeTimeshiftFileServer`. -/
  | probe (url : ByteString)
  /-- The notice is the probe's. -/
  | noticed (session : Nat)
  /-- `NotifyLiveStreamFatalOnce`, up to its notice: whether it is due. -/
  | fatalNotice
  /-- What a read hands back. -/
  | answer (result : Int) (bytes : ByteString)
  -- a seek
  | beginSeek
  | seek (position whence : Int)
  -- a length
  | beginLength
  | currentSession
  /-- The end of `PollLiveManifest`. -/
  | polledFatal (session : Nat)
  | totalBytes
  -- an open and a close
  | enter (isOpening : Bool)
  | leave
  | beginClose
  /-- `StopTimeshiftBuffer`. -/
  | stopBuffer (channelUuid viewerId accessToken : ByteString)
  | resetClosed
  | reset
  | generateViewerId
  | setViewer (viewerId : ByteString)
  /-- `StartTimeshiftBuffer`: whether it started, and whether it may be tried again. -/
  | startBuffer (channelUuid : ByteString)
  | setToken (accessToken : ByteString)
  | setOpen (channelUuid : ByteString)
  | probeTarget
  /-- `LiveTimeshiftAccessToken`. -/
  | accessToken
  | place

/-- The type of a command's answer. -/
@[reducible] def Cmd.Answer : Cmd → Type
  | .now => Int
  | .isAborting => Bool
  | .tryLockRefresh => Bool
  | .beginRefresh _ => Option (Option Asked)
  | .requestManifest _ => RefreshResult × Option Manifest
  | .mergeManifest .. => Bool
  | .arrive _ => Nat × Arrival
  | .resume .. => Going
  | .afterRefresh .. => Attempt
  | .afterSleep .. => Option Next
  | .beginFetch .. => Bool
  | .perform .. => FetchAnswer
  | .endFetch .. => Fetched
  | .countFailure => CountedFailure
  | .giveUp _ => ByteString × Int
  | .probe _ => Bool
  | .fatalNotice => Bool
  | .beginSeek => Bool
  | .seek .. => Int
  | .beginLength => Option Int
  | .currentSession => Nat
  | .totalBytes => Int
  | .beginClose => Closing
  | .startBuffer _ => Bool × Bool × ByteString
  | .probeTarget => ByteString × Int
  | .generateViewerId => ByteString
  | .accessToken => ByteString
  | _ => Unit

/-- What a step leaves open: how much longer than asked a sleep takes, and what a
network call answers. -/
structure Choice where
  longer : Nat := 0
  flag : Bool := true
  retryable : Bool := false
  response : Option Json := none
  httpStatus : Int := -1
  transferOk : Bool := true
  httpCode : Int := 206
  serverReportedTotal : Int := -1
  /-- The body, as the transfer hands it over. -/
  chunks : List ByteString := []
  text : ByteString := []

/-- Why a call's code ends without a result. -/
inductive Failure where
  /-- It has gone round its loop more often than it can. -/
  | outOfAttempts
deriving DecidableEq, Repr

/-! ## what a step does -/

namespace Record

/-- A sign, seen in a session. -/
def sign (r : Record) (sign : Sign) : Record := { r with signs := sign :: r.signs }

/-- A move of the position. -/
def move (r : Record) (move : Move CallId UInt8) : Record := { r with moves := r.moves ++ [move] }

end Record

namespace Client

/-- Whether the stream is still the one of a session. -/
def stillSameStream (c : Client) (session : Nat) : Bool :=
  c.stream.isOpen && c.session == session

/-- The stream replaced, within its session; a position that is another one is
recorded. -/
def put (c : Client) (s : LiveStream) : Client :=
  { c with
    stream := s
    record :=
      if s.position = c.stream.position then c.record else c.record.move (.jump s.position) }

/-- A sign of the present session. -/
def sign (c : Client) (sign : Sign) : Client := { c with record := c.record.sign sign }

/-- A new stream, and a new session. -/
def reset (c : Client) : Client :=
  { c with
    stream := {}
    session := c.session + 1
    record := { session := c.session + 1 }
    past := c.record :: c.past }

/-- The open is through: the address space begins anew, at the live edge. -/
def place (c : Client) : Client :=
  let s := c.stream.place
  { c with
    stream := s
    record :=
      { c.record with placed := true, tape := s.segments, moves := [.jump s.position] }
    past := c.record :: c.past }

/-- A manifest merged; the new segments are those behind what was held. -/
def merge (c : Client) (manifest : Manifest) : Client :=
  { c with
    stream := c.stream.mergeManifest manifest
    record :=
      { c.record with
        tape := c.record.tape ++
          (c.stream.merge manifest.segments).segments.drop c.stream.segments.length } }

/-- A section of a read, in the session it is about. -/
def within {α : Type} (c : Client) (session : Nat) (elsewhere : α) (f : LiveStream → LiveStream × α) :
    Client × α :=
  if c.stillSameStream session then (c.put (f c.stream).1, (f c.stream).2) else (c, elsewhere)

/-- What a step of a call does. -/
def exec (host : ByteString) (t : CallId) (c : Client) :
    (cmd : Cmd) → Choice → Option (Client × Except Failure cmd.Answer)
  | .now, _ => some (c, .ok c.clock)
  | .sleep ms, choice =>
      some ({ c with clock := c.clock + max ms 0 * 1000000 + choice.longer }, .ok ())
  | .isAborting, _ => some (c, .ok c.aborting)
  | .lockCurl, _ =>
      if c.curlOwner.isSome then none else some ({ c with curlOwner := some t }, .ok ())
  | .unlockCurl, _ => some ({ c with curlOwner := none }, .ok ())
  | .lockRefresh, _ =>
      if c.refreshOwner.isSome then none else some ({ c with refreshOwner := some t }, .ok ())
  | .tryLockRefresh, _ =>
      if c.refreshOwner.isSome then some (c, .ok false)
      else some ({ c with refreshOwner := some t }, .ok true)
  | .unlockRefresh, _ => some ({ c with refreshOwner := none }, .ok ())
  | .notify _, _ => some (c, .ok ())
  | .beginRefresh force, _ =>
      let (s, asked) := c.stream.beginRefresh c.clock c.session force
      some (c.put s, .ok asked)
  | .requestManifest asked, choice =>
      let answer := readManifest host choice.response choice.httpStatus
      some
        (if answer.1.fatal && asked.session == c.session then c.sign .fatalManifest else c,
          .ok answer)
  | .mergeManifest session manifest, _ =>
      if c.stillSameStream session then some (c.merge manifest, .ok true) else some (c, .ok false)
  | .arrive size, _ =>
      let (s, arrival) := c.stream.arrive c.clock size
      some (c.put s, .ok (c.session, arrival))
  | .heartbeat .., _ => some (c, .ok ())
  | .resume session size, _ =>
      let (c', going) := c.within session (.next (.returns (-1))) fun s => s.goOn c.clock size
      some (c', .ok going)
  | .afterRefresh session size wait attempt answered refreshFatal, _ =>
      let (c', next) := c.within session (.leave (.returns (-1))) fun s =>
        s.afterRefresh c.clock size wait attempt answered refreshFatal
      some (c', .ok next)
  | .afterSleep session size wait answered, _ =>
      let (c', next) := c.within session (some (.returns (-1))) fun s =>
        s.afterSleep c.clock size wait answered
      some (c', .ok next)
  | .beginFetch session read, choice =>
      if c.stillSameStream session && decide (c.stream.position = read.position) then
        -- `curl_easy_init` may fail, where there is no handle yet
        if c.stream.curl || choice.flag then
          some (c.put { c.stream with curl := true }, .ok true)
        else some (c, .ok false)
      else some (c, .ok false)
  | .perform _ read, choice =>
      let sink : FixedBufferSink := { capacity := read.wantSize }
      some
        (c, .ok
          { transferOk := choice.transferOk
            httpCode := choice.httpCode
            serverReportedTotal := choice.serverReportedTotal
            written := (sink.transfer choice.chunks).1.written })
  | .endFetch session read answer, _ =>
      let stillThere := c.stillSameStream session && decide (c.stream.position = read.position)
      let (s, fetched) := c.stream.endFetch stillThere read answer
      match fetched with
      | .delivered bytes =>
          some
            ({ c with
                stream := s
                record := (c.record.move (.deliver t bytes)).sign .delivered }, .ok fetched)
      | .returns _ =>
          let outcome := classifyLiveSegmentResponse answer.transferOk answer.httpCode
            read.offsetInSegment answer.serverReportedTotal read.segment.byteSize
          some (if outcome = .ok then c.put s else (c.put s).sign (.misread outcome), .ok fetched)
      | .failed => some (c.put s, .ok fetched)
  | .countFailure, _ =>
      let s := c.stream.countFailure c.clock
      some
        ((c.put s).sign (.failed c.clock),
          .ok
            { session := c.session
              failures := s.consecutiveSegmentFetchFailures
              streakStart := s.firstSegmentFetchFailureAt })
  | .giveUp session, _ =>
      if c.session = session then
        some
          (c.put { c.stream with fatal := true },
            .ok (c.stream.segmentBaseUrl, c.stream.fileServerPort))
      else some (c, .ok ([], 0))
  | .probe _, choice => some (c, .ok choice.flag)
  | .noticed session, _ =>
      some
        (if c.session = session then c.put { c.stream with fatalNotified := true } else c, .ok ())
  | .fatalNotice, _ =>
      if !c.stream.isOpen || !c.stream.fatal || c.stream.fatalNotified then some (c, .ok false)
      else some (c.put { c.stream with fatalNotified := true }, .ok true)
  | .answer result bytes, _ =>
      some ({ c with answers := c.answers ++ [(t, result, bytes)] }, .ok ())
  | .beginSeek, _ =>
      if !c.stream.isOpen || c.stream.fatal then some (c, .ok false)
      else some (c.put { c.stream with lastSeekTime := c.clock }, .ok true)
  | .seek position whence, _ =>
      let (result, newPos) := c.stream.seekLiveTimeshiftStream c.stream.isOpen c.stream.fatal
        c.stream.position position whence
      some (c.put { c.stream with position := newPos }, .ok result)
  | .beginLength, _ =>
      some
        (c, .ok
          (if !c.stream.isOpen then some (-1)
          else if c.stream.fatal then some c.stream.totalBytes
          else none))
  | .currentSession, _ => some (c, .ok c.session)
  | .polledFatal session, _ =>
      some
        (if c.stillSameStream session && !c.stream.fatal then
          c.put { c.stream with fatal := true }
        else c, .ok ())
  | .totalBytes, _ => some (c, .ok c.stream.totalBytes)
  | .enter isOpening, _ =>
      if c.switching.isSome then none
      else some ({ c with switching := some (t, isOpening) }, .ok ())
  | .leave, _ => some ({ c with switching := none }, .ok ())
  | .beginClose, _ =>
      some
        (c.put { c.stream with viewerId := [] },
          .ok
            { wasOpen := c.stream.isOpen
              channelUuid := c.stream.channelUuid
              viewerId := c.stream.viewerId
              accessToken := c.stream.accessToken })
  | .stopBuffer .., _ => some (c, .ok ())
  | .resetClosed, _ => some (c.reset, .ok ())
  | .reset, _ => some (c.reset, .ok ())
  | .generateViewerId, choice => some (c, .ok choice.text)
  | .setViewer viewerId, _ => some (c.put { c.stream with viewerId }, .ok ())
  | .startBuffer _, choice => some (c, .ok (choice.flag, choice.retryable, choice.text))
  | .setToken accessToken, _ => some (c.put { c.stream with accessToken }, .ok ())
  | .setOpen channelUuid, _ => some (c.put { c.stream with isOpen := true, channelUuid }, .ok ())
  | .probeTarget, _ => some (c, .ok (c.stream.segmentBaseUrl, c.stream.fileServerPort))
  | .accessToken, _ => some (c, .ok c.stream.accessToken)
  | .place, _ => some (c.place, .ok ())

end Client

/-- What happens by itself: time passes, and the add-on is torn down. -/
inductive Env where
  | tick (elapsed : Nat)
  | abort
deriving DecidableEq, Repr

def Client.env (c : Client) : Env → Option Client
  | .tick elapsed => some { c with clock := c.clock + elapsed }
  | .abort => some { c with aborting := true }

end LiveClient

end DispatcharrPvr
