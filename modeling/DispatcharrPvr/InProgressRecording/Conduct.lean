import DispatcharrPvr.InProgressRecording.Calls
import DispatcharrPvr.InProgressRecording.Sections

/-!
# InProgressRecording.Conduct

What holds of a client throughout, what a call may rely on the others to keep,
and what it promises of each command.  A refresh takes several steps, and other
calls come in between; what holds the whole together is that the one that has the
refresh mutex finds the stream as it left it.  So the client is at any time what
`InProgressClient` is after some events, each of which is a single one there
(`eventOf`).
-/

namespace DispatcharrPvr

namespace RecordingClient

open Interleaving InProgressStream ReadLog

/-- What a run is about: the files on the server, by session and URL, the server,
and the calls that Kodi makes. -/
structure Setting where
  content : Nat → ByteString → ByteString
  server : Server
  calls : CallId → Call

/-- Its source, for a recording. -/
abbrev Setting.source (S : Setting) (recordingId : Int) : InProgressSource :=
  S.server.source recordingId

/-! ## what a record says -/

namespace Record

/-- What the files hold at a position, by the session they are read in. -/
def byteAt (content : Nat → ByteString → ByteString) (r : Record) (position : Int) :
    Option UInt8 :=
  (findRecordingSegment position r.segments).bind fun seg =>
    (content r.session seg.url)[(position - seg.byteOffset).toNat]?

/-- All that was handed over is what the files hold there. -/
def Faithful (content : Nat → ByteString → ByteString) (r : Record) : Prop :=
  ReadLog.Faithful (r.byteAt content) 0 r.moves

/-- More segments change nothing of what was there. -/
theorem byteAt_append {content : Nat → ByteString → ByteString} (r r' : Record)
    (hsession : r'.session = r.session) (hsegments : r.segments <+: r'.segments) {p : Int}
    {b : UInt8} (h : r.byteAt content p = some b) : r'.byteAt content p = some b := by
  obtain ⟨news, hnews⟩ := hsegments
  obtain ⟨seg, hseg, hbyte⟩ := Option.bind_eq_some_iff.mp h
  have hfound : findRecordingSegment p r'.segments = some seg := by
    rw [← hnews]
    unfold findRecordingSegment at hseg ⊢
    rw [List.find?_append, hseg]
    rfl
  rw [byteAt, hfound, hsession]
  exact hbyte

end Record

namespace Client

/-- The client as one thing at a time would leave it. -/
def view (c : Client) : InProgressClient where
  cache := c.cache
  stream :=
    if c.stream.isOpen then some (c.stream.recordingId, c.stream.toInProgressRecordingStreamState)
    else none

/-- What was handed over to a call, in whichever session. -/
def deliveriesTo (t : CallId) (c : Client) : List ByteString :=
  c.past.reverse.flatMap (fun r => ReadLog.deliveriesTo t r.moves) ++
    ReadLog.deliveriesTo t c.record.moves

theorem mem_deliveriesTo_iff {t : CallId} {c : Client} {bytes : ByteString} :
    bytes ∈ c.deliveriesTo t ↔ ∃ r ∈ c.record :: c.past, .deliver t bytes ∈ r.moves := by
  simp [deliveriesTo, ReadLog.mem_deliveriesTo_iff, or_comm]

/-- What a call handed back. -/
def answersOf (t : CallId) (c : Client) : List (CallId × Int × ByteString) :=
  c.answers.filter (·.1 == t)

end Client

/-! ## events -/

/-- The refresh that has asked this, and has been answered so, when it ends. -/
def Inquiry.refresh (i : Inquiry) (endedAt : Int) : Option InProgressRefresh := do
  let lookup ← i.lookup
  let playlist ← i.playlist
  pure (refreshOf i.asked.now endedAt i.asked.coldStart lookup playlist i.sizes)

namespace Client

/-- The end of a call's refresh, of what its requests were answered; it is none where
another open or close has overtaken it. -/
def refreshEnds (t : CallId) (c : Client) : Option InProgressEvent := do
  let inquiry ← c.inquiries t
  if c.stillSameStream inquiry.asked.session then (inquiry.refresh c.clock).map .refresh else none

/-- The event of `InProgressClient` that a step of a call is, if any. -/
def eventOf (t : CallId) (c : Client) : Cmd → Option InProgressEvent
  | .withoutPlaylist .. | .mergeProbed .. => c.refreshEnds t
  | .reset => some .close
  | .setOpen recordingId _ => some (.openStream recordingId)
  | _ => none

end Client

/-! ## the invariant -/

/-- What holds of a client throughout. -/
structure Inv (S : Setting) (c : Client) : Prop where
  /-- It is what some events, one after the other, make of it. -/
  acts : ∃ events, (StreamHistory.after (S.source 0) events).client = c.view
  closed : c.stream.isOpen = false → c.stream = {}
  caches : Caches (S.content c.session) c.stream
  segments : c.record.segments = c.stream.segments
  position : c.stream.position = endOf 0 c.record.moves
  faithful : ∀ r ∈ c.record :: c.past, r.Faithful S.content
  session : c.record.session = c.session
  /-- What was handed back was handed over. -/
  answers : ∀ a ∈ c.answers, a.2.1 = a.2.2.length ∧ a.2.2 ∈ c.deliveriesTo a.1 ∨
    a.2.2 = [] ∧ a.2.1 ≤ 0

/-- The byte stream is filled. -/
theorem Inv.filled {S : Setting} {c : Client} (h : Inv S c) :
    c.stream.toInProgressRecordingStreamState.Filled := by
  cases hopen : c.stream.isOpen with
  | false =>
      rw [h.closed hopen]
      exact .initial
  | true =>
      obtain ⟨events, hevents⟩ := h.acts
      have hall := filled_after (S.source 0) events
      refine hall.filled _ _ (hall.cached.is_last c.stream.recordingId _ ?_)
      rw [hevents]
      simp [Client.view, hopen]

/-! ## what the calls know and promise -/

/-- The segment that was chosen is one of this session's, and has the position it was
chosen for. -/
structure Chosen (session : Nat) (read : RecordingRead) (c : Client) : Prop where
  segment : c.session = session → read.segment ∈ c.stream.segments
  start : read.segment.byteOffset ≤ read.position
  inside : read.position < read.segment.byteOffset + read.segment.byteSize

theorem Chosen.reads {session : Nat} {read : RecordingRead} {c : Client}
    (h : Chosen session read c) (hsession : c.session = session) : c.stream.Reads read :=
  ⟨h.segment hsession, h.start, h.inside⟩

/-- The stream is the one that a refresh asks about, and as it was. -/
structure Asks (asked : AskedPlaylist) (c : Client) : Prop where
  recordingId : c.stream.recordingId = asked.recordingId
  stays : c.stream.contentGone = false
  haveSegments : asked.haveSegments = !c.stream.segments.isEmpty

/-- What a refresh knows of the stream while no other one can refresh it. -/
def Asking (asked : AskedPlaylist) (c : Client) : Prop :=
  asked.session ≤ c.session ∧ (c.session = asked.session → c.stream.isOpen = true → Asks asked c)

/-- What its requests have been answered so far. -/
structure Inquires (t : CallId) (inquiry : Inquiry) (c : Client) : Prop where
  asking : Asking inquiry.asked c
  noted : c.inquiries t = some inquiry

/-- The entries that are sized are the playlist's new ones, and the sizes are those of
the first of them. -/
structure Sized (source : InProgressSource) (playlistText : ByteString)
    (pending : List M3u8SegmentEntry) (probedCount : Nat) (c : Client) : Prop where
  entries : pending = source.pending playlistText c.stream.segments.length
  count : probedCount =
    InProgressRecordingStreamState.probeCount c.stream.unprobeableSegment pending

/-- Which of the two mutexes a call holds. -/
structure Holds (t : CallId) (curl refresh : Bool) (c : Client) : Prop where
  curl : c.curlOwner = some t ↔ curl = true
  refresh : c.refreshOwner = some t ↔ refresh = true

/-- What may become of a client while a call looks on, whichever mutexes it holds. -/
structure Sees (t : CallId) (c c' : Client) : Prop where
  clock : c.clock ≤ c'.clock
  session : c.session ≤ c'.session
  same : c'.session = c.session → c'.stream.isOpen = c.stream.isOpen ∧
    c'.stream.recordingId = c.stream.recordingId ∧ c.stream.segments <+: c'.stream.segments
  switching : c'.switching = some t ↔ c.switching = some t
  /-- While it opens or closes a stream, no other call does. -/
  alone : c.switching = some t → c'.session = c.session
  delivered : c'.deliveriesTo t = c.deliveriesTo t
  answers : c'.answersOf t = c.answersOf t

/-- What a call may rely on the others to keep. -/
structure Rely (t : CallId) (c c' : Client) : Prop extends Sees t c c' where
  curl : c'.curlOwner = some t ↔ c.curlOwner = some t
  refresh : c'.refreshOwner = some t ↔ c.refreshOwner = some t
  /-- No other call refreshes the stream meanwhile. -/
  frozen : c.refreshOwner = some t → c'.session = c.session →
    c'.stream.toInProgressRecordingStreamState = c.stream.toInProgressRecordingStreamState
  stays : c.refreshOwner = some t → c.stream.contentGone = false → c'.stream.contentGone = false
  inquiry : c'.inquiries t = c.inquiries t

theorem Sees.refl (t : CallId) (c : Client) : Sees t c c where
  clock := Int.le_refl _
  session := Nat.le_refl _
  same _ := ⟨rfl, rfl, List.prefix_rfl⟩
  switching := Iff.rfl
  alone _ := rfl
  delivered := rfl
  answers := rfl

theorem Sees.trans {t : CallId} {c c' c'' : Client} (h : Sees t c c') (h' : Sees t c' c'') :
    Sees t c c'' where
  clock := Int.le_trans h.clock h'.clock
  session := Nat.le_trans h.session h'.session
  same heq := by
    have := h.session
    have := h'.session
    obtain ⟨hopen, hid, hsegments⟩ := h.same (by omega)
    obtain ⟨hopen', hid', hsegments'⟩ := h'.same (by omega)
    exact ⟨hopen'.trans hopen, hid'.trans hid, hsegments.trans hsegments'⟩
  switching := h'.switching.trans h.switching
  alone halone := (h'.alone (h.switching.mpr halone)).trans (h.alone halone)
  delivered := h'.delivered.trans h.delivered
  answers := h'.answers.trans h.answers

theorem Rely.refl (t : CallId) (c : Client) : Rely t c c :=
  { Sees.refl t c with
    curl := Iff.rfl
    refresh := Iff.rfl
    frozen := fun _ _ => rfl
    stays := fun _ h => h
    inquiry := rfl }

theorem Rely.trans {t : CallId} {c c' c'' : Client} (h : Rely t c c') (h' : Rely t c' c'') :
    Rely t c c'' :=
  { h.toSees.trans h'.toSees with
    curl := h'.curl.trans h.curl
    refresh := h'.refresh.trans h.refresh
    frozen := fun hheld hsame => by
      have := h.session
      have := h'.session
      exact (h'.frozen (h.refresh.mpr hheld) (by omega)).trans (h.frozen hheld (by omega))
    stays := fun hheld hstays => h'.stays (h.refresh.mpr hheld) (h.stays hheld hstays)
    inquiry := h'.inquiry.trans h.inquiry }

/-- What a call promises of a command. -/
def Promise (S : Setting) (t : CallId) (c : Client) : Cmd → Prop
  | .lockCurl | .lockRefresh => c.curlOwner ≠ some t ∧ c.refreshOwner ≠ some t
  | .tryLockRefresh => c.refreshOwner ≠ some t
  | .enter => c.curlOwner ≠ some t ∧ c.refreshOwner ≠ some t ∧ c.switching ≠ some t
  | .unlockCurl => c.curlOwner = some t
  | .unlockRefresh => c.refreshOwner = some t
  | .leave | .reset => c.switching = some t
  | .setOpen .. => c.switching = some t ∧ c.stream.isOpen = false
  | .place => c.stream.isOpen = true
  | .withoutPlaylist asked lookup wasNotFound =>
      c.refreshOwner = some t ∧
        Inquires t { asked, lookup := some lookup, playlist := some (.failed wasNotFound) } c ∧
        shouldSkipPlaylistAfterUnansweredLookup asked.coldStart asked.haveSegments lookup = false
  | .mergeProbed asked lookup playlistText pending probedCount sizes =>
      c.refreshOwner = some t ∧
        Inquires t
          { asked, lookup := some lookup, playlist := some (.fetched playlistText), sizes } c ∧
        shouldSkipPlaylistAfterUnansweredLookup asked.coldStart asked.haveSegments lookup = false ∧
        SizesOf pending probedCount sizes ∧
        (c.session = asked.session →
          Sized (S.source asked.recordingId) playlistText pending probedCount c)
  | .beginFetch session _ read => Chosen session read c
  | .endFetch session _ read answer .. | .afterKey session _ read answer .. =>
      Chosen session read c ∧ Answered (S.content session) read answer
  | .answer result bytes => HandsBack (c.deliveriesTo t) result bytes
  | _ => True

/-- The steps that are supposed to happen: the answer to the fetch of a segment comes
from the file it asks for. -/
def supposed (content : Nat → ByteString → ByteString) : Cmd → Choice → Prop
  | .perform session read, choice => choice.transferOk = true → choice.httpCode = 200 →
      choice.chunks.flatten <+: content session read.segment.url
  | _, _ => True

instance decidableSupposed (content : Nat → ByteString → ByteString) (cmd : Cmd)
    (choice : Choice) : Decidable (supposed content cmd choice) := by
  cases cmd
  case perform session read =>
    exact inferInstanceAs (Decidable (choice.transferOk = true → choice.httpCode = 200 →
      choice.chunks.flatten <+: content session read.segment.url))
  all_goals exact .isTrue trivial

end RecordingClient

end DispatcharrPvr
