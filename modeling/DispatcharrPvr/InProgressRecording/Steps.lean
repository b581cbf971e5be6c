import DispatcharrPvr.InProgressRecording.Conduct

/-!
# InProgressRecording.Steps

What one step of a call does to a client (`exec_effect`), with the event that it
is, and that it keeps the invariant and what the other calls rely on.
-/

namespace DispatcharrPvr

namespace RecordingClient

open Interleaving InProgressStream ReadLog

variable {S : Setting} {t t' : CallId} {c c' : Client} {event : Option InProgressEvent}

/-! ## what a step does -/

/-- What a step of a call makes of a client, and the event that it is. -/
inductive Effect (S : Setting) (t : CallId) (c : Client) : Option InProgressEvent → Client → Prop
  | stays : Effect S t c none c
  | waits (elapsed : Nat) : Effect S t c none { c with clock := c.clock + elapsed }
  | curl {owner : Option CallId}
      (h : c.curlOwner = none ∧ owner = some t ∨ c.curlOwner = some t ∧ owner = none) :
      Effect S t c none { c with curlOwner := owner }
  | refresh {owner : Option CallId}
      (h : c.refreshOwner = none ∧ owner = some t ∨ c.refreshOwner = some t ∧ owner = none) :
      Effect S t c none { c with refreshOwner := owner }
  | switches {owner : Option CallId}
      (h : c.switching = none ∧ owner = some t ∨ c.switching = some t ∧ owner = none) :
      Effect S t c none { c with switching := owner }
  | puts {s : InProgressStream} (h : Kept (S.content c.session) c.stream s)
      (hclosed : c.stream.isOpen = false → s = c.stream) : Effect S t c none (c.put s)
  | asks {s : InProgressStream} (h : Kept (S.content c.session) c.stream s)
      (hclosed : c.stream.isOpen = false → s = c.stream) (inquiry : Option Inquiry) :
      Effect S t c none ((c.put s).noted t inquiry)
  | hears (f : Inquiry → Inquiry) : Effect S t c none (c.hears t f)
  | delivers {s : InProgressStream} {read : RecordingRead} {bytes : ByteString}
      (h : Kept (S.content c.session) c.stream s) (hopen : c.stream.isOpen = true)
      (hreads : c.stream.Reads read) (hread : c.stream.position = read.position)
      (hposition : s.position = c.stream.position + bytes.length)
      (hbytes : bytes <+: ((S.content c.session read.segment.url).take
        read.segment.byteSize.toNat).drop read.offsetInSegment.toNat) :
      Effect S t c none { c with stream := s, record := c.record.move (.deliver t bytes) }
  /-- A refresh is over. -/
  | refreshes {s : InProgressStream} {cache : SegmentCache} {r : InProgressRefresh}
      (howner : c.refreshOwner = some t) (hopen : c.stream.isOpen = true)
      (hspace : s.toInProgressRecordingStreamState =
        c.stream.toInProgressRecordingStreamState.refresh (S.source c.stream.recordingId) r)
      (hcache : cache = (c.view.refresh (S.source 0) r).cache) (hsame : SameReader c.stream s) :
      Effect S t c (some (.refresh r)) (c.refreshed s cache)
  | answers {result : Int} {bytes : ByteString} (h : HandsBack (c.deliveriesTo t) result bytes) :
      Effect S t c none { c with answers := c.answers ++ [(t, result, bytes)] }
  | resets (h : c.switching = some t) : Effect S t c (some .close) (c.renew {})
  | opens {recordingId startTime : Int} (h : c.switching = some t)
      (hclosed : c.stream.isOpen = false) :
      Effect S t c (some (.openStream recordingId))
        (c.renew (c.stream.seed recordingId startTime (c.cache recordingId)))

@[simp] theorem Client.put_self (c : Client) : c.put c.stream = c := by simp [put]

theorem Client.stillSameStream_iff {session : Nat} :
    c.stillSameStream session = true ↔ c.stream.isOpen = true ∧ c.session = session := by
  simp [stillSameStream]

section Effects

variable {α : Type} {session : Nat} {elsewhere : α}

/-- A section that is only entered in its session. -/
theorem within_effect {f : InProgressStream → InProgressStream × α}
    (h : Kept (S.content c.session) c.stream (f c.stream).1) :
    Effect S t c none (c.within session elsewhere f).1 := by
  unfold Client.within
  split
  · next hsame =>
      have hopen := (Client.stillSameStream_iff.mp hsame).1
      exact .puts h fun hclosed => by simp [hopen] at hclosed
  · exact .stays

/-- A section of a fetch that hands nothing over is another section. -/
theorem handOver_of_rests {content : ByteString → ByteString} {s : InProgressStream}
    {x : InProgressStream × Fetch} (h : Rests content s x) :
    c.handOver t x = (c.put x.1, x.2) := by
  obtain ⟨s', fetch⟩ := x
  cases fetch with
  | delivered wantSize bytes => exact absurd rfl (h.nothing wantSize bytes)
  | returns | perform | refreshKey | retry | notFound | unreadable => rfl

theorem fetches_effect {f : InProgressStream → InProgressStream × Fetch} {read : RecordingRead}
    (h : c.session = session → c.stream.isOpen = true → c.stream.Reads read ∧
      FetchLeaves (S.content c.session) read c.stream (f c.stream)) :
    Effect S t c none (c.fetches t session f).1 := by
  unfold Client.fetches
  split
  · next hsame =>
      obtain ⟨hopen, hsession⟩ := Client.stillSameStream_iff.mp hsame
      obtain ⟨hreads, hleaves⟩ := h hsession hopen
      generalize f c.stream = x at hleaves
      cases hleaves with
      | rests hrests =>
          rw [handOver_of_rests hrests]
          exact .puts hrests.kept fun hclosed => by simp [hopen] at hclosed
      | delivers hkept hread hposition hwant hbytes =>
          exact .delivers hkept hopen hreads hread hposition hbytes
  · exact .stays

end Effects

/-- The event that the end of a refresh is. -/
theorem Inquires.refreshEnds {inquiry : Inquiry} (h : Inquires t inquiry c) :
    c.refreshEnds t = if c.stillSameStream inquiry.asked.session then
      (inquiry.refresh c.clock).map .refresh else none := by
  simp only [Client.refreshEnds, h.noted]
  rfl

/-- What a refresh that is over has found. -/
theorem Asking.asks {asked : AskedPlaylist} (h : Asking asked c)
    (hsame : c.stillSameStream asked.session = true) : Asks asked c := by
  obtain ⟨hopen, hsession⟩ := Client.stillSameStream_iff.mp hsame
  exact h.2 hsession hopen

theorem withoutPlaylist_effect {asked : AskedPlaylist} {lookup : RecordingLookup}
    {wasNotFound : Bool} (hpromise : Promise S t c (.withoutPlaylist asked lookup wasNotFound))
    (hsame : c.stillSameStream asked.session = true) :
    Effect S t c (c.refreshEnds t)
      (c.refreshed (c.stream.withoutPlaylist lookup wasNotFound)
        (if isInProgressContentGone (!c.stream.segments.isEmpty) wasNotFound lookup then
          c.cache.set c.stream.recordingId none
        else c.cache)) := by
  obtain ⟨howner, hinquires, hlookup⟩ := hpromise
  have hasks : Asks asked c := hinquires.asking.asks hsame
  have hopen := (Client.stillSameStream_iff.mp hsame).1
  rw [hasks.haveSegments] at hlookup
  let r := refreshOf asked.now c.clock asked.coldStart lookup (.failed wasNotFound) []
  have hevent : c.refreshEnds t = some (.refresh r) :=
    hinquires.refreshEnds.trans (if_pos hsame)
  have hspace : (c.stream.withoutPlaylist lookup wasNotFound).toInProgressRecordingStreamState =
      c.stream.toInProgressRecordingStreamState.refresh (S.source c.stream.recordingId) r :=
    withoutPlaylist_space hasks.stays hlookup
  rw [hevent]
  refine .refreshes howner hopen hspace ?_ (sameReader_withoutPlaylist wasNotFound)
  have hfetched : fetchedText (c.stream.toInProgressRecordingStreamState, r) = none := by
    simp [fetchedText, r, refreshOf]
  have hgone : (c.stream.withoutPlaylist lookup wasNotFound).contentGone =
      isInProgressContentGone (!c.stream.segments.isEmpty) wasNotFound lookup := by
    unfold withoutPlaylist
    cases wasNotFound <;> simp only [Bool.false_eq_true, if_false, if_true] <;> split <;>
      simp_all [hasks.stays]
  simp only [InProgressClient.refresh, Client.view, hopen, if_true, hfetched]
  have hafter := congrArg (·.contentGone) hspace
  simp only [hgone] at hafter
  show _ = if (InProgressRecordingStreamState.refresh (S.source c.stream.recordingId) _ r).contentGone && _
    then _ else _
  rw [← hafter, hasks.stays, Bool.not_false, Bool.and_true]

theorem mergeProbed_effect {asked : AskedPlaylist} {lookup : RecordingLookup}
    {playlistText : ByteString} {pending : List M3u8SegmentEntry} {probedCount : Nat}
    {sizes : List Int}
    (hpromise : Promise S t c
      (.mergeProbed asked lookup playlistText pending probedCount sizes))
    (hsame : c.stillSameStream asked.session = true) :
    let probed := probedEntries c.stream.unprobeableSegment pending sizes probedCount c.clock
    let s := c.stream.mergeProbed (S.source asked.recordingId) asked.now c.clock lookup
      playlistText pending probed
    Effect S t c (c.refreshEnds t)
      (c.refreshed s (c.cache.writeBack c.stream.recordingId probed.mergedCount
        s.toInProgressRecordingStreamState asked.now)) := by
  intro probed s
  obtain ⟨howner, hinquires, hlookup, hsizes, hsized⟩ := hpromise
  have hasks : Asks asked c := hinquires.asking.asks hsame
  obtain ⟨hopen, hsession⟩ := Client.stillSameStream_iff.mp hsame
  obtain ⟨hentries, hcount⟩ := hsized hsession
  rw [hasks.haveSegments] at hlookup
  rw [← hasks.recordingId] at hentries
  let r := refreshOf asked.now c.clock asked.coldStart lookup (.fetched playlistText) sizes
  have hevent : c.refreshEnds t = some (.refresh r) :=
    hinquires.refreshEnds.trans (if_pos hsame)
  have hspace : s.toInProgressRecordingStreamState =
      c.stream.toInProgressRecordingStreamState.refresh (S.source c.stream.recordingId) r := by
    simp only [s, ← hasks.recordingId]
    exact mergeProbed_space hasks.stays hlookup hentries hcount hsizes
  rw [hevent]
  refine .refreshes howner hopen hspace ?_ ⟨rfl, rfl, rfl, rfl, rfl⟩
  have hfetched : fetchedText (c.stream.toInProgressRecordingStreamState, r) = some playlistText := by
    simp [fetchedText, r, refreshOf, hasks.stays, hlookup]
  have hprobed : probed = InProgressRecordingStreamState.probeEntries c.stream.unprobeableSegment
      pending r := by
    simp only [probed, hcount]
    exact probedEntries_eq (hcount ▸ hsizes) _ _ _ _ _
  simp only [InProgressClient.refresh, Client.view, hopen, if_true, hfetched]
  rw [hspace, hprobed, hentries]
  rfl

theorem exec_effect {cmd : Cmd} {choice : Choice} {r : Except Failure cmd.Answer} (hinv : Inv S c)
    (hpromise : Promise S t c cmd) (h : c.exec S.server t cmd choice = some (c', r)) :
    Effect S t c (c.eventOf t cmd) c' := by
  have hthere : ∀ read, c.stillThere read = true → c.stream.position = read.position :=
    fun read => of_decide_eq_true
  cases cmd <;> simp only [Client.exec, Option.some.injEq, Prod.mk.injEq] at h
  case now | notify | beginRefresh | headSegment | arrive | perform | obtainKey | isOpen |
      totalBytes | totalDurationMs | coldStartLook =>
    exact h.1 ▸ .stays
  case lookup | fetchPlaylist | probe => exact h.1 ▸ .hears _
  case sleep ms =>
    have helapsed : c.clock + max ms 0 * 1000000 + choice.longer =
        c.clock + ((max ms 0 * 1000000).toNat + choice.longer : Nat) := by omega
    rw [helapsed] at h
    exact h.1 ▸ .waits _
  case lockCurl =>
    split at h
    · contradiction
    · next hfree =>
        simp only [Option.some.injEq, Prod.mk.injEq] at h
        exact h.1 ▸ .curl (.inl ⟨by simpa using hfree, rfl⟩)
  case unlockCurl => exact h.1 ▸ .curl (.inr ⟨hpromise, rfl⟩)
  case lockRefresh =>
    split at h
    · contradiction
    · next hfree =>
        simp only [Option.some.injEq, Prod.mk.injEq] at h
        exact h.1 ▸ .refresh (.inl ⟨by simpa using hfree, rfl⟩)
  case tryLockRefresh =>
    split at h <;> simp only [Option.some.injEq, Prod.mk.injEq] at h
    · exact h.1 ▸ .stays
    · next hfree => exact h.1 ▸ .refresh (.inl ⟨by simpa using hfree, rfl⟩)
  case unlockRefresh => exact h.1 ▸ .refresh (.inr ⟨hpromise, rfl⟩)
  case beginKeepAlive =>
    exact h.1 ▸ .puts kept_beginKeepAlive beginKeepAlive_of_closed
  case endKeepAlive session outcome =>
    exact h.1 ▸ within_effect ⟨rfl, rfl, rfl, id⟩
  case beginAsk force coldStart =>
    exact h.1 ▸ .asks kept_beginAsk beginAsk_of_closed _
  case withoutPlaylist asked lookup wasNotFound =>
    split at h <;> simp only [Option.some.injEq, Prod.mk.injEq] at h
    · next hsame => exact h.1 ▸ withoutPlaylist_effect hpromise hsame
    · next hother =>
        have hnone : c.refreshEnds t = none := hpromise.2.1.refreshEnds.trans (if_neg hother)
        rw [Client.eventOf, hnone]
        exact h.1 ▸ .stays
  case beginProbes asked playlistText =>
    split at h <;> simp only [Option.some.injEq, Prod.mk.injEq] at h <;> exact h.1 ▸ .stays
  case mergeProbed asked lookup playlistText pending probedCount sizes =>
    split at h <;> simp only [Option.some.injEq, Prod.mk.injEq] at h
    · next hsame => exact h.1 ▸ mergeProbed_effect hpromise hsame
    · next hother =>
        have hnone : c.refreshEnds t = none := hpromise.2.1.refreshEnds.trans (if_neg hother)
        rw [Client.eventOf, hnone]
        exact h.1 ▸ .stays
  case afterRefresh session wait attempt => exact h.1 ▸ within_effect kept_afterRefresh
  case afterSleep session wait => exact h.1 ▸ within_effect kept_afterSleep
  case beginFetch session size read =>
    refine h.1 ▸ fetches_effect fun hsession _ => ⟨hpromise.reads hsession, ?_⟩
    exact fetchLeaves_beginFetch (hthere read) hinv.filled hinv.caches (hpromise.reads hsession)
  case endFetch session size read answer apiKeyRefreshed transientFailures start =>
    refine h.1 ▸ fetches_effect fun hsession _ => ⟨hpromise.1.reads hsession, ?_⟩
    exact fetchLeaves_endFetch (hthere read) (hpromise.1.reads hsession) (hsession ▸ hpromise.2)
  case afterKey session size read answer regenerated transientFailures start =>
    refine h.1 ▸ fetches_effect fun hsession _ => ⟨hpromise.1.reads hsession, ?_⟩
    exact fetchLeaves_afterKey (hthere read) (hpromise.1.reads hsession) (hsession ▸ hpromise.2)
  case afterDelay session => exact h.1 ▸ within_effect (rests_prepare choice.flag).kept
  case afterNotFound session => exact h.1 ▸ within_effect rests_afterNotFound.kept
  case answer result bytes => exact h.1 ▸ .answers hpromise
  case beginSeek =>
    split at h <;> simp only [Option.some.injEq, Prod.mk.injEq] at h
    · exact h.1 ▸ .stays
    · next hopen =>
        exact h.1 ▸ .puts ⟨rfl, rfl, rfl, id⟩ fun hclosed => by simp [hclosed] at hopen
  case seek position whence => exact h.1 ▸ .puts kept_seek seek_of_closed
  case enter =>
    split at h
    · contradiction
    · next hfree =>
        simp only [Option.some.injEq, Prod.mk.injEq] at h
        exact h.1 ▸ .switches (.inl ⟨by simpa using hfree, rfl⟩)
  case leave => exact h.1 ▸ .switches (.inr ⟨hpromise, rfl⟩)
  case reset => exact h.1 ▸ .resets hpromise
  case setOpen recordingId startTime => exact h.1 ▸ .opens hpromise.1 hpromise.2
  case place =>
    have hopen : c.stream.isOpen = true := hpromise
    exact h.1 ▸ .puts ⟨rfl, rfl, rfl, id⟩ fun hclosed => by simp [hopen] at hclosed

/-! ## the invariant -/

/-- A refresh appends to what there is. -/
theorem segments_prefix_of_refresh {s : InProgressStream} {r : InProgressRefresh}
    (hspace : s.toInProgressRecordingStreamState =
      c.stream.toInProgressRecordingStreamState.refresh (S.source c.stream.recordingId) r) :
    c.stream.segments <+: s.segments := by
  have hrefresh := InProgressRecordingStreamState.segments_prefix_refresh
    (S.source c.stream.recordingId) c.stream.toInProgressRecordingStreamState r
  rwa [← hspace] at hrefresh

namespace Client

variable {s : InProgressStream}

@[simp] theorem record_put_session : (c.put s).record.session = c.record.session := by
  unfold put
  dsimp only
  split <;> rfl

@[simp] theorem record_put_segments : (c.put s).record.segments = c.record.segments := by
  unfold put
  dsimp only
  split <;> rfl

@[simp] theorem deliveriesTo_put (t : CallId) : (c.put s).deliveriesTo t = c.deliveriesTo t := by
  unfold deliveriesTo put
  dsimp only
  split <;> simp [Record.move]

theorem deliveriesTo_renew (t : CallId) : (c.renew s).deliveriesTo t = c.deliveriesTo t := by
  simp [deliveriesTo, renew]

theorem deliveriesTo_deliver (t t' : CallId) (bytes : ByteString) :
    Client.deliveriesTo t' { c with stream := s, record := c.record.move (.deliver t bytes) } =
      c.deliveriesTo t' ++ if t = t' then [bytes] else [] := by
  simp [deliveriesTo, Record.move]

/-- The record follows the position. -/
theorem endOf_put (h : c.stream.position = endOf 0 c.record.moves) :
    s.position = endOf 0 (c.put s).record.moves := by
  unfold put
  dsimp only
  split
  · next hsame => rw [hsame, h]
  · simp [Record.move, endOf]

theorem faithful_put {content : Nat → ByteString → ByteString} (h : c.record.Faithful content) :
    (c.put s).record.Faithful content := by
  unfold put
  dsimp only
  split
  · exact h
  · exact faithful_append.mpr ⟨h, trivial⟩

/-- Sections are no events. -/
theorem view_put {content : ByteString → ByteString} (h : Kept content c.stream s) :
    (c.put s).view = c.view := by
  simp [view, put, h.space, h.isOpen, h.recordingId]

/-- The end of a refresh is one. -/
theorem view_refreshed {cache : SegmentCache} {r : InProgressRefresh}
    (hopen : c.stream.isOpen = true)
    (hspace : s.toInProgressRecordingStreamState =
      c.stream.toInProgressRecordingStreamState.refresh (S.source c.stream.recordingId) r)
    (hcache : cache = (c.view.refresh (S.source 0) r).cache) (hsame : SameReader c.stream s) :
    (c.refreshed s cache).view = c.view.refresh (S.source 0) r := by
  have hstream : (c.view.refresh (S.source 0) r).stream = some (c.stream.recordingId,
      c.stream.toInProgressRecordingStreamState.refresh (S.source c.stream.recordingId) r) := by
    simp only [InProgressClient.refresh, view, hopen, if_true]
    rfl
  have hview : (c.refreshed s cache).view =
      { cache, stream := some (s.recordingId, s.toInProgressRecordingStreamState) } := by
    simp [view, refreshed, hsame.isOpen, hopen]
  rw [hview, hcache, hsame.recordingId, hspace, ← hstream]

/-- Nor is what a section hands over. -/
theorem view_deliver {content : ByteString → ByteString} {r : Record}
    (h : Kept content c.stream s) : Client.view { c with stream := s, record := r } = c.view := by
  simp [view, h.space, h.isOpen, h.recordingId]

theorem view_seeds (hinit : c.stream = {}) (recordingId startTime : Int) :
    (c.renew (c.stream.seed recordingId startTime (c.cache recordingId))).view =
      c.view.next (S.source 0) (.openStream recordingId) := by
  rw [hinit]
  cases hcache : c.cache recordingId <;>
    simp [view, renew, seed, InProgressClient.next, InProgressClient.openStream,
      InProgressClient.close, hcache]

end Client

/-- What becomes of it is what `InProgressClient` makes of the event, if there is one. -/
def Acts (S : Setting) (event : Option InProgressEvent) (c c' : Client) : Prop :=
  c'.view = event.elim c.view (c.view.next (S.source 0))

/-- **A step of a call is one event**, or none. -/
theorem Effect.acts (hinv : Inv S c) (h : Effect S t c event c') : Acts S event c c' := by
  cases h with
  | stays => exact rfl
  | waits | curl | refresh | switches | hears | answers => exact rfl
  | puts hkept hclosed => exact Client.view_put hkept
  | @asks s hkept hclosed inquiry =>
      have hput : (c.put s).view = c.view := Client.view_put hkept
      exact hput
  | delivers hkept hopen hreads hread hposition hbytes => exact Client.view_deliver hkept
  | refreshes howner hopen hspace hcache hsame =>
      exact Client.view_refreshed hopen hspace hcache hsame
  | resets hswitching => exact rfl
  | opens hswitching hclosed => exact Client.view_seeds (S := S) (hinv.closed hclosed) _ _

namespace Inv

theorem faithful_record (h : Inv S c) : c.record.Faithful S.content :=
  h.faithful _ List.mem_cons_self

/-- The past is as it was. -/
theorem faithful_cons (h : Inv S c) {r' : Record} (hr' : r'.Faithful S.content) :
    ∀ r ∈ r' :: c.past, r.Faithful S.content := by
  intro r hr
  rcases List.mem_cons.mp hr with rfl | hr
  · exact hr'
  · exact h.faithful r (List.mem_cons_of_mem _ hr)

/-- What was handed over stays so. -/
theorem answers_mono (h : Inv S c) (hmore : ∀ t, c.deliveriesTo t <+: c'.deliveriesTo t) :
    ∀ a ∈ c.answers, a.2.1 = a.2.2.length ∧ a.2.2 ∈ c'.deliveriesTo a.1 ∨
      a.2.2 = [] ∧ a.2.1 ≤ 0 :=
  fun a ha => (h.answers a ha).imp_left fun hgiven => ⟨hgiven.1, (hmore a.1).subset hgiven.2⟩

/-- One more event, or none. -/
theorem acts_next (h : Inv S c) (hacts : Acts S event c c') :
    ∃ events, (StreamHistory.after (S.source 0) events).client = c'.view := by
  obtain ⟨events, hevents⟩ := h.acts
  unfold Acts at hacts
  cases event with
  | none => exact ⟨events, hevents.trans hacts.symm⟩
  | some event =>
      refine ⟨events ++ [event], ?_⟩
      rw [hacts, Option.elim_some, ← hevents, StreamHistory.after, List.foldl_append]
      rfl

theorem put (h : Inv S c) {s : InProgressStream} (hacts : Acts S event c (c.put s))
    (hkept : Kept (S.content c.session) c.stream s)
    (hclosed : c.stream.isOpen = false → s = c.stream) : Inv S (c.put s) where
  acts := h.acts_next hacts
  closed hnot := by
    have hshut : c.stream.isOpen = false := hkept.isOpen.symm.trans hnot
    exact (hclosed hshut).trans (h.closed hshut)
  caches := hkept.caches h.caches
  segments := by
    rw [Client.record_put_segments, h.segments]
    exact congrArg (·.segments) hkept.space.symm
  position := Client.endOf_put h.position
  faithful := h.faithful_cons (Client.faithful_put h.faithful_record)
  session := by
    rw [Client.record_put_session]
    exact h.session
  answers := h.answers_mono fun t => by
    simp only [Client.deliveriesTo_put, List.prefix_rfl]

/-- **A part of a segment** is handed over: it is what the segment's file has there. -/
theorem deliver (h : Inv S c) {s : InProgressStream} {read : RecordingRead} {bytes : ByteString}
    (hacts : Acts S event c { c with stream := s, record := c.record.move (.deliver t bytes) })
    (hkept : Kept (S.content c.session) c.stream s) (hopen : c.stream.isOpen = true)
    (hreads : c.stream.Reads read) (hread : c.stream.position = read.position)
    (hposition : s.position = c.stream.position + bytes.length)
    (hbytes : bytes <+: ((S.content c.session read.segment.url).take
      read.segment.byteSize.toNat).drop read.offsetInSegment.toNat) :
    Inv S { c with stream := s, record := c.record.move (.deliver t bytes) } := by
  have hsegments : s.segments = c.stream.segments := congrArg (·.segments) hkept.space
  have hshows : Shows (c.record.byteAt S.content) c.stream.position bytes := by
    intro i b hi
    obtain ⟨hlt, -⟩ := List.getElem?_eq_some_iff.mp hi
    have hstart := hreads.start
    have hfits := hbytes.length_le
    rw [List.length_drop, List.length_take] at hfits
    unfold RecordingRead.offsetInSegment at hbytes hfits
    have hfound : findRecordingSegment (c.stream.position + i) c.record.segments =
        some read.segment := by
      rw [h.segments]
      exact findRecordingSegment_eq h.filled hreads.segment (by omega) (by omega)
    have hat : (c.stream.position + i - read.segment.byteOffset).toNat =
        (read.position - read.segment.byteOffset).toNat + i := by omega
    obtain ⟨rest, hrest⟩ := hbytes
    rw [Record.byteAt, hfound, Option.bind_some, hat, h.session]
    have hinside : ((S.content c.session read.segment.url).take read.segment.byteSize.toNat)[
        (read.position - read.segment.byteOffset).toNat + i]? = some b := by
      rw [← List.getElem?_drop, ← hrest, List.getElem?_append_left hlt]
      exact hi
    rwa [List.getElem?_take_of_lt (by omega)] at hinside
  exact
    { acts := h.acts_next hacts
      closed := fun hnot => absurd (hkept.isOpen.symm.trans hnot) (by simp [hopen])
      caches := hkept.caches h.caches
      segments := h.segments.trans hsegments.symm
      position := by
        show s.position = endOf 0 (c.record.moves ++ [_])
        rw [endOf_append, ← h.position]
        exact hposition
      faithful := by
        refine h.faithful_cons (faithful_append.mpr ⟨h.faithful_record, ?_, trivial⟩)
        rw [← h.position]
        exact hshows
      session := h.session
      answers := h.answers_mono fun t' => by
        rw [Client.deliveriesTo_deliver]
        exact List.prefix_append _ _ }

/-- A refresh is over. -/
theorem refreshed (h : Inv S c) {s : InProgressStream} {cache : SegmentCache}
    {r : InProgressRefresh} (hacts : Acts S event c (c.refreshed s cache))
    (hopen : c.stream.isOpen = true)
    (hspace : s.toInProgressRecordingStreamState =
      c.stream.toInProgressRecordingStreamState.refresh (S.source c.stream.recordingId) r)
    (hsame : SameReader c.stream s) : Inv S (c.refreshed s cache) := by
  have hgrown : c.stream.segments <+: s.segments := segments_prefix_of_refresh hspace
  exact
    { acts := h.acts_next hacts
      closed := fun hnot => absurd (hsame.isOpen.symm.trans hnot) (by simp [hopen])
      caches := hsame.caches hgrown h.caches
      segments := rfl
      position := hsame.position.trans h.position
      faithful := by
        have hold : ReadLog.Faithful (c.record.byteAt S.content) 0 c.record.moves :=
          h.faithful_record
        have hmore : ∀ p b, c.record.byteAt S.content p = some b →
            (c.refreshed s cache).record.byteAt S.content p = some b := fun p b =>
          Record.byteAt_append c.record (c.refreshed s cache).record rfl (h.segments ▸ hgrown)
        exact h.faithful_cons (hold.mono hmore)
      session := h.session
      answers := h.answers }

/-- Another stream, in a session of its own. -/
theorem renew (h : Inv S c) {s : InProgressStream} (hacts : Acts S event c (c.renew s))
    (hclosed : s.isOpen = false → s = {}) (hcached : s.cachedSegmentByteOffset = -1)
    (hposition : s.position = 0) : Inv S (c.renew s) where
  acts := h.acts_next hacts
  closed := hclosed
  caches hcaches := absurd hcached hcaches
  segments := rfl
  position := hposition
  faithful := by
    intro r hr
    rcases List.mem_cons.mp hr with rfl | hr
    · exact trivial
    · exact h.faithful r hr
  session := rfl
  answers := h.answers_mono fun t => by
    simp only [Client.deliveriesTo_renew, List.prefix_rfl]

/-- What an open makes of a closed stream. -/
theorem seeds (h : Inv S c) {recordingId startTime : Int}
    (hacts : Acts S event c (c.renew (c.stream.seed recordingId startTime (c.cache recordingId))))
    (hclosed : c.stream.isOpen = false) :
    Inv S (c.renew (c.stream.seed recordingId startTime (c.cache recordingId))) := by
  have hopened : ∀ cached, (seed {} recordingId startTime cached).isOpen = true ∧
      (seed {} recordingId startTime cached).cachedSegmentByteOffset = -1 ∧
      (seed {} recordingId startTime cached).position = 0 := by
    intro cached
    cases cached <;> exact ⟨rfl, rfl, rfl⟩
  rw [h.closed hclosed] at hacts ⊢
  obtain ⟨hopen, hcached, hposition⟩ := hopened (c.cache recordingId)
  exact h.renew hacts (fun hnot => absurd hnot (by simp [hopen])) hcached hposition

/-- **A step of a call keeps the invariant.** -/
theorem step (h : Inv S c) (heffect : Effect S t c event c') : Inv S c' := by
  have hacts : Acts S event c c' := heffect.acts h
  cases heffect with
  | stays => exact h
  | waits elapsed => exact { h with }
  | curl hcurl => exact { h with }
  | refresh hrefresh => exact { h with }
  | switches hswitches => exact { h with }
  | puts hkept hclosed => exact h.put hacts hkept hclosed
  | @asks s hkept hclosed inquiry =>
      have hput : Inv S (c.put s) := h.put hacts hkept hclosed
      exact { hput with }
  | hears f => exact { h with }
  | delivers hkept hopen hreads hread hposition hbytes =>
      exact h.deliver hacts hkept hopen hreads hread hposition hbytes
  | refreshes howner hopen hspace hcache hsame => exact h.refreshed hacts hopen hspace hsame
  | answers hback =>
      refine { h with answers := fun a ha => ?_ }
      rcases List.mem_append.mp ha with ha | ha
      · exact h.answers a ha
      · obtain rfl := List.mem_singleton.mp ha
        rcases hback with ⟨hgiven, hresult⟩ | ⟨-, hnone⟩
        · refine .inl ⟨hresult, ?_⟩
          show _ ∈ c.deliveriesTo t
          rw [hgiven]
          exact List.mem_singleton_self _
        · exact .inr hnone
  | resets hswitching => exact h.renew hacts (fun _ => rfl) rfl rfl
  | opens hswitching hclosed => exact h.seeds hacts hclosed

end Inv

/-! ## what the others rely on -/

/-- A refresh that came through, as any call sees it. -/
theorem Sees.refreshed (t : CallId) {s : InProgressStream} {cache : SegmentCache}
    (hsame : SameReader c.stream s) (hgrown : c.stream.segments <+: s.segments) :
    Sees t c (c.refreshed s cache) :=
  { Sees.refl t c with same := fun _ => ⟨hsame.isOpen, hsame.recordingId, hgrown⟩ }

/-- What a call notes of its refresh. -/
theorem Sees.noted (t : CallId) (inquiry : Option Inquiry) : Sees t c (c.noted t inquiry) :=
  { Sees.refl t c with }

namespace Rely

theorem put {s : InProgressStream} {content : ByteString → ByteString}
    (hkept : Kept content c.stream s) : Rely t' c (c.put s) :=
  { refl t' c with
    same := fun _ => ⟨hkept.isOpen, hkept.recordingId, by
      show _ <+: s.segments
      rw [show s.segments = c.stream.segments from congrArg (·.segments) hkept.space]⟩
    delivered := Client.deliveriesTo_put t'
    frozen := fun _ _ => hkept.space
    stays := fun _ hstays => (congrArg (·.contentGone) hkept.space).trans hstays }

/-- What another call notes. -/
theorem noted (hne : t' ≠ t) (inquiry : Option Inquiry) : Rely t' c (c.noted t inquiry) :=
  { refl t' c with inquiry := if_neg hne }

/-- A new session, of a stream whose content is there. -/
theorem renew {s : InProgressStream} (halone : c.switching ≠ some t')
    (hstays : s.contentGone = false) : Rely t' c (c.renew s) :=
  { refl t' c with
    session := Nat.le_succ _
    same := fun hsame => absurd hsame (Nat.succ_ne_self _)
    alone := fun hmine => absurd hmine halone
    delivered := Client.deliveriesTo_renew t'
    frozen := fun _ hsame => absurd hsame (Nat.succ_ne_self _)
    stays := fun _ _ => hstays }

/-- **A step of a call is one the others rely on.** -/
theorem step (hinv : Inv S c) (heffect : Effect S t c event c') (hne : t' ≠ t) : Rely t' c c' := by
  have hother : ∀ {owner : Option CallId}, owner = some t → owner ≠ some t' := by
    rintro owner rfl h
    exact hne (Option.some.inj h).symm
  cases heffect with
  | stays => exact refl t' c
  | waits elapsed =>
      exact { refl t' c with
        clock := by
          show c.clock ≤ c.clock + elapsed
          omega }
  | curl hcurl =>
      refine { refl t' c with curl := ?_ }
      rcases hcurl with ⟨hfree, rfl⟩ | ⟨howner, rfl⟩
      · simp [hfree, Ne.symm hne]
      · simp [howner, Ne.symm hne]
  | refresh hrefresh =>
      refine { refl t' c with refresh := ?_ }
      rcases hrefresh with ⟨hfree, rfl⟩ | ⟨howner, rfl⟩
      · simp [hfree, Ne.symm hne]
      · simp [howner, Ne.symm hne]
  | switches hswitches =>
      refine { refl t' c with switching := ?_ }
      rcases hswitches with ⟨hfree, rfl⟩ | ⟨howner, rfl⟩
      · simp [hfree, Ne.symm hne]
      · simp [howner, Ne.symm hne]
  | puts hkept hclosed => exact put hkept
  | @asks s hkept hclosed inquiry =>
      have hput : Rely t' c (c.put s) := put hkept
      exact hput.trans (noted hne inquiry)
  | hears f => exact noted hne _
  | delivers hkept hopen hreads hread hposition hbytes =>
      have hput : Rely t' c (c.put _) := put hkept
      exact { hput with
        delivered := by
          rw [Client.deliveriesTo_deliver, if_neg (Ne.symm hne), List.append_nil] }
  | refreshes howner hopen hspace hcache hsame =>
      exact { Sees.refreshed t' hsame (segments_prefix_of_refresh hspace), refl t' c with
        frozen := fun hmine => absurd hmine (hother howner)
        stays := fun hmine => absurd hmine (hother howner) }
  | answers hback =>
      refine { refl t' c with answers := ?_ }
      simp [Client.answersOf, Ne.symm hne]
  | resets hswitching => exact renew (hother hswitching) rfl
  | @opens recordingId startTime hswitching hclosed =>
      refine renew (hother hswitching) ?_
      rw [hinv.closed hclosed]
      cases c.cache recordingId <;> rfl

end Rely

end RecordingClient

end DispatcharrPvr
