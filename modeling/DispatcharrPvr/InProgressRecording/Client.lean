import DispatcharrPvr.InProgressRecording.AddressSpace
import DispatcharrPvr.Lib.Interleaving
import DispatcharrPvr.Lib.ReadLog

/-!
# InProgressRecording.Client

What the calls on a recording in progress share (`DispatcharrClient`): the stream
with its session number, the cache of known segments, the two mutexes that are
held over a network call, and the clock.  Each command is one step: a stretch
that holds `m_inProgressStateMutex`, a network call, a mutex, or a sleep.

A `Record` keeps what became of a session: its segments, and the moves of its
position.  An `Inquiry` keeps what the requests of a call's latest refresh were
answered.
-/

namespace DispatcharrPvr

namespace RecordingClient

open Interleaving InProgressStream ReadLog

/-- A call of Kodi's, by its number. -/
abbrev CallId := Nat

/-! ## what is shared -/

/-- What the calls are made with: the server, the arithmetic on durations, and how
long a short request may take. -/
structure Server where
  config : ServerConfig
  arithmetic : DoubleArithmetic
  shortRequestTimeoutMs : Int

namespace Server

/-- A recording of it. -/
def source (server : Server) (recordingId : Int) : InProgressSource where
  baseUrl := server.config.baseUrl
  recordingId
  arithmetic := server.arithmetic

/-- `IsOnConfiguredServer`. -/
def has (server : Server) (url : ByteString) : Bool := server.config.isOnConfiguredServer url

/-- `ProbeSegmentByteSize`, by what its request comes to. -/
def probeSegmentByteSize (server : Server) (url : ByteString) (answer : Int) : Int :=
  if server.has url then min answer kMaxProbedSegmentByteSize else -1

end Server

/-- What has become of one session. -/
structure Record where
  session : Nat := 0
  segments : List InProgressRecordingSegmentInfo := []
  moves : List (Move CallId UInt8) := []

/-- What a refresh has asked about, and what its requests have been answered so far. -/
structure Inquiry where
  asked : AskedPlaylist
  lookup : Option RecordingLookup := none
  playlist : Option PlaylistFetch := none
  sizes : List Int := []

/-- The members of `DispatcharrClient` that the calls use, and what has become of
them. -/
structure Client where
  stream : InProgressStream := {}
  /-- `m_inProgressSegmentCache`. -/
  cache : SegmentCache := fun _ => none
  /-- `m_inProgressSession`. -/
  session : Nat := 0
  clock : Int := 1
  /-- `m_abortRequests`. -/
  aborting : Bool := false
  /-- `m_inProgressCurlMutex`. -/
  curlOwner : Option CallId := none
  /-- `m_inProgressRefreshMutex`. -/
  refreshOwner : Option CallId := none
  /-- The open or close that is under way. -/
  switching : Option CallId := none
  record : Record := {}
  past : List Record := []
  answers : List (CallId × Int × ByteString) := []
  inquiries : CallId → Option Inquiry := fun _ => none

/-! ## commands -/

/-- One step of a call. -/
inductive Cmd where
  /-- `steady_clock::now`. -/
  | now
  | sleep (ms : Int)
  | notify (message : String)
  | lockCurl
  | unlockCurl
  | lockRefresh
  | tryLockRefresh
  | unlockRefresh
  -- the refresh
  | beginRefresh
  | beginKeepAlive
  | headSegment (url : ByteString)
  | endKeepAlive (session : Nat) (outcome : HlsKeepAliveOutcome)
  | beginAsk (force coldStart : Bool)
  /-- `GetRecordingById`. -/
  | lookup (asked : AskedPlaylist)
  /-- `FetchRawInProgressPlaylist`. -/
  | fetchPlaylist (asked : AskedPlaylist)
  | withoutPlaylist (asked : AskedPlaylist) (lookup : RecordingLookup) (wasNotFound : Bool)
  | beginProbes (asked : AskedPlaylist) (playlistText : ByteString)
  | probe (pending : List M3u8SegmentEntry) (probedCount : Nat)
  | mergeProbed (asked : AskedPlaylist) (lookup : RecordingLookup) (playlistText : ByteString)
      (pending : List M3u8SegmentEntry) (probedCount : Nat) (sizes : List Int)
  -- a read
  | arrive (size : Nat)
  | afterRefresh (session : Nat) (wait : TailWait) (attempt : Nat)
  | afterSleep (session : Nat) (wait : TailWait)
  | beginFetch (session size : Nat) (read : RecordingRead)
  | perform (session : Nat) (read : RecordingRead)
  | endFetch (session size : Nat) (read : RecordingRead) (answer : SegmentAnswer)
      (apiKeyRefreshed : Bool) (transientFailures : Nat) (start : Int)
  /-- `ObtainApiKey`. -/
  | obtainKey
  | afterKey (session size : Nat) (read : RecordingRead) (answer : SegmentAnswer)
      (regenerated : Bool) (transientFailures : Nat) (start : Int)
  | afterDelay (session : Nat)
  | afterNotFound (session : Nat)
  /-- What a read hands back. -/
  | answer (result : Int) (bytes : ByteString)
  -- a seek, a length, a duration
  | beginSeek
  | seek (position whence : Int)
  | isOpen
  | totalBytes
  | totalDurationMs
  -- an open and a close
  | enter
  | leave
  | reset
  | setOpen (recordingId startTime : Int)
  /-- Whether there are segments, and whether the recording is over. -/
  | coldStartLook
  | place

/-- The type of a command's answer. -/
@[reducible] def Cmd.Answer : Cmd → Type
  | .now => Int
  | .tryLockRefresh => Bool
  | .beginRefresh => Bool
  | .beginKeepAlive => Option (Nat × ByteString)
  | .headSegment _ => Option HlsKeepAliveOutcome
  | .beginAsk .. => Option (Option AskedPlaylist)
  | .lookup _ => RecordingLookup
  | .fetchPlaylist _ => PlaylistFetch × Int
  | .withoutPlaylist .. => Bool
  | .beginProbes .. => Option (List M3u8SegmentEntry × Nat)
  | .probe .. => List Int
  | .mergeProbed .. => Bool
  | .arrive _ => Nat × InProgressStream.Going
  | .afterRefresh .. => InProgressStream.Attempt
  | .afterSleep .. => Option InProgressStream.Next
  | .beginFetch .. => Int × Fetch
  | .perform .. => SegmentAnswer
  | .endFetch .. | .afterKey .. | .afterDelay _ | .afterNotFound _ => Fetch
  | .obtainKey => Bool
  | .beginSeek => Bool
  | .seek .. => Int
  | .isOpen => Bool
  | .totalBytes => Int
  | .totalDurationMs => Int
  | .coldStartLook => Bool × Bool
  | _ => Unit

/-- What a step leaves open: how much longer than asked a sleep takes, and what a
network call answers. -/
structure Choice where
  longer : Nat := 0
  flag : Bool := true
  lookup : RecordingLookup := .answered true
  playlist : PlaylistFetch := .failed false
  playlistHttpStatus : Int := 200
  sizes : Nat → Int := fun _ => -1
  transferOk : Bool := true
  httpCode : Int := 200
  /-- The body, as the transfer hands it over. -/
  chunks : List ByteString := []

/-- Why a call's code ends without a result. -/
inductive Failure where
  /-- It has gone round its loop more often than it can. -/
  | outOfAttempts
deriving DecidableEq, Repr

/-! ## what a step does -/

/-- A move of the position. -/
def Record.move (r : Record) (move : Move CallId UInt8) : Record :=
  { r with moves := r.moves ++ [move] }

namespace Client

/-- Whether the stream is still the one of a session. -/
def stillSameStream (c : Client) (session : Nat) : Bool :=
  c.stream.isOpen && c.session == session

/-- The stream replaced, within its session; a position that is another one is
recorded. -/
def put (c : Client) (s : InProgressStream) : Client :=
  { c with
    stream := s
    record :=
      if s.position = c.stream.position then c.record else c.record.move (.jump s.position) }

/-- Another stream, and another session. -/
def renew (c : Client) (s : InProgressStream) : Client :=
  { c with
    stream := s
    session := c.session + 1
    record := { session := c.session + 1, segments := s.segments }
    past := c.record :: c.past }

/-- A refresh that came through. -/
def refreshed (c : Client) (s : InProgressStream) (cache : SegmentCache) : Client :=
  { c with
    stream := s
    cache
    record := { c.record with segments := s.segments } }

/-- What is noted of a call's refresh. -/
def noted (c : Client) (t : CallId) (inquiry : Option Inquiry) : Client :=
  { c with inquiries := fun t' => if t' = t then inquiry else c.inquiries t' }

/-- A request of a call's refresh is answered. -/
def hears (c : Client) (t : CallId) (f : Inquiry → Inquiry) : Client :=
  c.noted t ((c.inquiries t).map f)

/-- A section of a read, in the session it is about. -/
def within {α : Type} (c : Client) (session : Nat) (elsewhere : α)
    (f : InProgressStream → InProgressStream × α) : Client × α :=
  if c.stillSameStream session then (c.put (f c.stream).1, (f c.stream).2) else (c, elsewhere)

/-- What a section of a fetch leaves, with what it hands over. -/
def handOver (c : Client) (t : CallId) : InProgressStream × Fetch → Client × Fetch
  | (s, .delivered wantSize bytes) =>
      ({ c with stream := s, record := c.record.move (.deliver t bytes) },
        .delivered wantSize bytes)
  | (s, fetch) => (c.put s, fetch)

/-- A section of a fetch, in the session it is about. -/
def fetches (c : Client) (t : CallId) (session : Nat)
    (f : InProgressStream → InProgressStream × Fetch) : Client × Fetch :=
  if c.stillSameStream session then c.handOver t (f c.stream) else (c, .returns (-1))

/-- Whether the position is still the one a segment was chosen for. -/
def stillThere (c : Client) (read : RecordingRead) : Bool :=
  decide (c.stream.position = read.position)

/-- What a step of a call does. -/
def exec (server : Server) (t : CallId) (c : Client) :
    (cmd : Cmd) → Choice → Option (Client × Except Failure cmd.Answer)
  | .now, _ => some (c, .ok c.clock)
  | .sleep ms, choice =>
      some ({ c with clock := c.clock + max ms 0 * 1000000 + choice.longer }, .ok ())
  | .notify _, _ => some (c, .ok ())
  | .lockCurl, _ =>
      if c.curlOwner.isSome then none else some ({ c with curlOwner := some t }, .ok ())
  | .unlockCurl, _ => some ({ c with curlOwner := none }, .ok ())
  | .lockRefresh, _ =>
      if c.refreshOwner.isSome then none else some ({ c with refreshOwner := some t }, .ok ())
  | .tryLockRefresh, _ =>
      if c.refreshOwner.isSome then some (c, .ok false)
      else some ({ c with refreshOwner := some t }, .ok true)
  | .unlockRefresh, _ => some ({ c with refreshOwner := none }, .ok ())
  | .beginRefresh, _ => some (c, .ok (c.stream.isOpen && !c.stream.contentGone))
  | .beginKeepAlive, _ =>
      let (s, url) := c.stream.beginKeepAlive server.has c.clock
      some (c.put s, .ok (url.map fun url => (c.session, url)))
  | .headSegment _, choice =>
      some
        (c, .ok
          (if choice.flag then
            some (classifyHlsKeepAliveResponse choice.transferOk choice.httpCode)
          else none))
  | .endKeepAlive session outcome, _ =>
      some ((c.within session () fun s => (s.endKeepAlive c.clock outcome, ())).1, .ok ())
  | .beginAsk force coldStart, _ =>
      let (s, asked) := c.stream.beginAsk c.clock c.session force coldStart
      some ((c.put s).noted t (asked.join.map fun asked => { asked }), .ok asked)
  | .lookup _, choice =>
      some (c.hears t fun i => { i with lookup := some choice.lookup }, .ok choice.lookup)
  | .fetchPlaylist _, choice =>
      some
        (c.hears t fun i => { i with playlist := some choice.playlist },
          .ok (choice.playlist, choice.playlistHttpStatus))
  | .withoutPlaylist asked lookup wasNotFound, _ =>
      if c.stillSameStream asked.session then
        some
          (c.refreshed (c.stream.withoutPlaylist lookup wasNotFound)
            (if isInProgressContentGone (!c.stream.segments.isEmpty) wasNotFound lookup then
              c.cache.set c.stream.recordingId none
            else c.cache), .ok true)
      else some (c, .ok false)
  | .beginProbes asked playlistText, _ =>
      if c.stillSameStream asked.session then
        let pending :=
          (server.source asked.recordingId).pending playlistText c.stream.segments.length
        some
          (c, .ok (some
            (pending,
              InProgressRecordingStreamState.probeCount c.stream.unprobeableSegment pending)))
      else some (c, .ok none)
  | .probe pending probedCount, choice =>
      let sizes := (List.range pending.length).map fun i =>
        if i < probedCount then
          server.probeSegmentByteSize ((pending[i]?.map (·.url)).getD []) (choice.sizes i)
        else -1
      some (c.hears t fun i => { i with sizes }, .ok sizes)
  | .mergeProbed asked lookup playlistText pending probedCount sizes, _ =>
      if c.stillSameStream asked.session then
        let probed := probedEntries c.stream.unprobeableSegment pending sizes probedCount c.clock
        let s := c.stream.mergeProbed (server.source asked.recordingId) asked.now c.clock lookup
          playlistText pending probed
        some
          (c.refreshed s (c.cache.writeBack c.stream.recordingId probed.mergedCount
            s.toInProgressRecordingStreamState asked.now), .ok true)
      else some (c, .ok false)
  | .arrive size, _ => some (c, .ok (c.session, c.stream.arrive server.has c.clock size))
  | .afterRefresh session wait attempt, _ =>
      let (c', next) := c.within session (.leave (.returns (-1))) fun s =>
        s.afterRefresh server.has c.clock wait attempt
      some (c', .ok next)
  | .afterSleep session wait, _ =>
      let (c', next) := c.within session (some (.returns (-1))) fun s =>
        s.afterSleep server.has wait
      some (c', .ok next)
  | .beginFetch session size read, choice =>
      let (c', fetch) := c.fetches t session fun s =>
        s.beginFetch size (c.stillThere read) choice.flag read
      some (c', .ok (c.clock, fetch))
  | .perform _ read, choice =>
      let sink : FixedBufferSink := { capacity := read.segment.byteSize.toNat }
      some
        (c, .ok
          { transferOk := choice.transferOk
            httpCode := choice.httpCode
            written := (sink.transfer choice.chunks).1.written })
  | .endFetch session size read answer apiKeyRefreshed transientFailures start, _ =>
      let (c', fetch) := c.fetches t session fun s =>
        s.endFetch c.clock size (c.stillThere read) c.aborting read answer apiKeyRefreshed
          transientFailures start
      some (c', .ok fetch)
  | .obtainKey, choice => some (c, .ok choice.flag)
  | .afterKey session size read answer regenerated transientFailures start, choice =>
      let (c', fetch) := c.fetches t session fun s =>
        s.afterKey c.clock size (c.stillThere read) c.aborting choice.flag regenerated read answer
          transientFailures start
      some (c', .ok fetch)
  | .afterDelay session, choice =>
      let (c', fetch) := c.within session (.returns (-1)) fun s => s.prepare choice.flag
      some (c', .ok fetch)
  | .afterNotFound session, _ =>
      let (c', fetch) := c.within session (.returns (-1)) fun s => s.afterNotFound c.clock
      some (c', .ok fetch)
  | .answer result bytes, _ =>
      some ({ c with answers := c.answers ++ [(t, result, bytes)] }, .ok ())
  | .beginSeek, _ =>
      if !c.stream.isOpen then some (c, .ok false)
      else some (c.put { c.stream with lastSeekTime := c.clock }, .ok true)
  | .seek position whence, _ =>
      let (s, result) := c.stream.seek position whence
      some (c.put s, .ok result)
  | .isOpen, _ => some (c, .ok c.stream.isOpen)
  | .totalBytes, _ => some (c, .ok c.stream.totalBytes)
  | .totalDurationMs, _ => some (c, .ok c.stream.totalDurationMs)
  | .enter, _ =>
      if c.switching.isSome then none else some ({ c with switching := some t }, .ok ())
  | .leave, _ => some ({ c with switching := none }, .ok ())
  | .reset, _ => some (c.renew {}, .ok ())
  | .setOpen recordingId startTime, _ =>
      some (c.renew (c.stream.seed recordingId startTime (c.cache recordingId)), .ok ())
  | .coldStartLook, _ => some (c, .ok (!c.stream.segments.isEmpty, c.stream.finished))
  | .place, _ => some (c.put (c.stream.place c.clock), .ok ())

end Client

/-- What happens by itself: time passes, and the add-on is torn down. -/
inductive Env where
  | tick (elapsed : Nat)
  | abort
deriving DecidableEq, Repr

def Client.env (c : Client) : Env → Option Client
  | .tick elapsed => some { c with clock := c.clock + elapsed }
  | .abort => some { c with aborting := true }

end RecordingClient

end DispatcharrPvr
