import DispatcharrPvr.InProgressRecording.AddressSpace

/-!
# InProgressRecording.Sections

What a section that holds the stream leaves of it: a read and a seek leave its
segments as they are, a fetch hands over what the segment has there, and the two
sections that end a refresh do what the refresh does as a whole.
-/

namespace DispatcharrPvr

namespace InProgressStream

open InProgressRecordingStreamState

/-! ## the sections of a read -/

/-- What the cached bytes are the front of: a segment with bytes, cut off at its
size. -/
def Caches (content : ByteString → ByteString) (s : InProgressStream) : Prop :=
  s.cachedSegmentByteOffset ≠ -1 → ∃ seg ∈ s.segments,
    seg.byteOffset = s.cachedSegmentByteOffset ∧ 0 < seg.byteSize ∧
      s.cachedSegmentBytes <+: (content seg.url).take seg.byteSize.toNat

/-- What a section leaves of a stream. -/
structure Kept (content : ByteString → ByteString) (s s' : InProgressStream) : Prop where
  space : s'.toInProgressRecordingStreamState = s.toInProgressRecordingStreamState
  isOpen : s'.isOpen = s.isOpen
  recordingId : s'.recordingId = s.recordingId
  caches : Caches content s → Caches content s'

/-- The segment of a read is one of the stream's, and has the position it was chosen
for. -/
structure Reads (s : InProgressStream) (read : RecordingRead) : Prop where
  segment : read.segment ∈ s.segments
  start : read.segment.byteOffset ≤ read.position
  inside : read.position < read.segment.byteOffset + read.segment.byteSize

/-- The answer to a fetch is the front of the segment, when it is taken for that. -/
def Answered (content : ByteString → ByteString) (read : RecordingRead) (answer : SegmentAnswer) :
    Prop :=
  answer.transferOk = true → answer.httpCode = 200 →
    answer.written <+: (content read.segment.url).take read.segment.byteSize.toNat

section Kept

variable {content : ByteString → ByteString} {s s' s'' : InProgressStream}
  {onServer : ByteString → Bool} {now : Int} {size : Nat} {wait : TailWait}

theorem Kept.refl (s : InProgressStream) : Kept content s s := ⟨rfl, rfl, rfl, id⟩

theorem Kept.trans (h : Kept content s s') (h' : Kept content s' s'') : Kept content s s'' where
  space := h'.space.trans h.space
  isOpen := h'.isOpen.trans h.isOpen
  recordingId := h'.recordingId.trans h.recordingId
  caches hcaches := h'.caches (h.caches hcaches)

theorem kept_leaveTail (onServer : ByteString → Bool) : Kept content s (s.leaveTail onServer wait).1 := ⟨rfl, rfl, rfl, id⟩

theorem kept_afterRefresh {attempt : Nat} :
    Kept content s (s.afterRefresh onServer now wait attempt).1 := by
  unfold afterRefresh
  dsimp only
  split
  · exact kept_leaveTail onServer
  · exact .refl s

theorem kept_afterSleep : Kept content s (s.afterSleep onServer wait).1 := by
  unfold afterSleep
  split
  · exact .refl s
  · exact kept_leaveTail onServer

theorem kept_seek {position whence : Int} : Kept content s (s.seek position whence).1 := by
  unfold seek
  split
  · exact .refl s
  · dsimp only
    split <;> exact ⟨rfl, rfl, rfl, id⟩

theorem kept_beginKeepAlive : Kept content s (s.beginKeepAlive onServer now).1 := by
  unfold beginKeepAlive
  split
  · exact .refl s
  split
  · exact .refl s
  split <;> exact ⟨rfl, rfl, rfl, id⟩

theorem kept_beginAsk {session : Nat} {force coldStart : Bool} :
    Kept content s (s.beginAsk now session force coldStart).1 := by
  unfold beginAsk
  split
  · exact .refl s
  split <;> exact ⟨rfl, rfl, rfl, id⟩

/-! A stream that is not open is left as it is. -/

theorem seek_of_closed {position whence : Int} (hclosed : s.isOpen = false) :
    (s.seek position whence).1 = s := by
  simp [seek, hclosed]

theorem beginKeepAlive_of_closed (hclosed : s.isOpen = false) :
    (s.beginKeepAlive onServer now).1 = s := by
  simp [beginKeepAlive, hclosed]

theorem beginAsk_of_closed {session : Nat} {force coldStart : Bool} (hclosed : s.isOpen = false) :
    (s.beginAsk now session force coldStart).1 = s := by
  simp [beginAsk, hclosed]

end Kept

/-! ## what they find -/

/-- What is found to be read is there. -/
def FoundNext (s : InProgressStream) : Next → Prop
  | .returns result => result ≤ 0
  | .read read => s.Reads read

/-- The same, and a wait has a first attempt. -/
def FoundGoing (s : InProgressStream) : Going → Prop
  | .next next => s.FoundNext next
  | .await wait => 0 < wait.attempts

/-- What is found after an attempt; it is not the last one where a sleep follows. -/
def FoundAttempt (s : InProgressStream) (wait : TailWait) (attempt : Nat) : Attempt → Prop
  | .leave next => s.FoundNext next
  | .sleep => (attempt : Int) + 1 < wait.attempts

section Found

variable {s : InProgressStream} {onServer : ByteString → Bool} {now : Int} {size : Nat}
  {wait : TailWait}

theorem foundNext_choose : s.FoundNext (s.choose onServer) := by
  unfold choose
  split
  · exact Int.le_refl 0
  · next seg hfind =>
      split
      · obtain ⟨hmem, hstart, hend⟩ := findRecordingSegment_some hfind
        exact ⟨hmem, hstart, hend⟩
      · exact Int.le_refl 0

theorem foundNext_leaveTail : s.FoundNext (s.leaveTail onServer wait).2 := by
  unfold leaveTail
  dsimp only
  split
  · exact foundNext_choose (s := { s with lastShortGiveUpPosition := _ })
  · exact Int.le_refl 0

theorem foundGoing_arrive : s.FoundGoing (s.arrive onServer now size) := by
  unfold arrive
  split
  · exact Int.le_refl 0
  split
  · exact Int.le_refl 0
  split
  · split
    · exact Int.le_refl 0
    · exact computeCatchUpAttempts_pos _ _ _
  · exact foundNext_choose

theorem foundAttempt_afterRefresh {attempt : Nat} :
    s.FoundAttempt wait attempt (s.afterRefresh onServer now wait attempt).2 := by
  unfold afterRefresh
  dsimp only
  split
  · exact foundNext_leaveTail
  · next hgo =>
      simp only [Bool.or_eq_true, not_or, decide_eq_true_eq] at hgo
      show (attempt : Int) + 1 < wait.attempts
      omega

theorem foundNext_afterSleep {next : Next} (h : (s.afterSleep onServer wait).2 = some next) :
    s.FoundNext next := by
  unfold afterSleep at h
  split at h
  · cases h
  · obtain rfl := Option.some.inj h
    exact foundNext_leaveTail

/-- A refresh is for the session it is begun in, of the stream as it is. -/
theorem beginAsk_asked {session : Nat} {force coldStart : Bool} {asked : AskedPlaylist}
    (h : (s.beginAsk now session force coldStart).2 = some (some asked)) :
    s.isOpen = true ∧ asked.session = session ∧ asked.recordingId = s.recordingId ∧
      asked.haveSegments = !s.segments.isEmpty := by
  unfold beginAsk at h
  split at h
  · cases h
  · next hopen =>
      split at h
      · cases h
      · obtain rfl := Option.some.inj (Option.some.inj h)
        exact ⟨by simpa using hopen, rfl, rfl, rfl⟩

end Found

/-! ## the fetch of a segment -/

/-- A section of a fetch that hands nothing over. -/
structure Rests (content : ByteString → ByteString) (s : InProgressStream)
    (x : InProgressStream × Fetch) : Prop where
  kept : Kept content s x.1
  position : x.1.position = s.position
  nothing : ∀ wantSize bytes, x.2 ≠ .delivered wantSize bytes

theorem Rests.refl {content : ByteString → ByteString} {s : InProgressStream} {fetch : Fetch}
    (hnothing : ∀ wantSize bytes, fetch ≠ .delivered wantSize bytes) :
    Rests content s (s, fetch) :=
  ⟨.refl s, rfl, hnothing⟩

/-- What a section of a fetch leaves of the stream: all of it where it was, or past the
bytes that it hands over, which the segment has there. -/
inductive FetchLeaves (content : ByteString → ByteString) (read : RecordingRead)
    (s : InProgressStream) : InProgressStream × Fetch → Prop
  | rests {x : InProgressStream × Fetch} (h : Rests content s x) : FetchLeaves content read s x
  | delivers {s' : InProgressStream} {wantSize : Int} {bytes : ByteString}
      (hkept : Kept content s s') (hread : s.position = read.position)
      (hposition : s'.position = s.position + bytes.length) (hwant : wantSize = bytes.length)
      (hbytes : bytes <+: ((content read.segment.url).take read.segment.byteSize.toNat).drop
        read.offsetInSegment.toNat) :
      FetchLeaves content read s (s', .delivered wantSize bytes)

/-- What an answer that is not about the key comes to. -/
def Decided (now start : Int) (transientFailures : Nat) : Fetch → Prop
  | .returns result => result ≤ 0
  | .retry delayMs => delayMs = segmentFetchRetryDelayMs (transientFailures + 1) ∧
      milliseconds (now - start) < kTransientReadBudget
  | .perform | .refreshKey _ => False
  | .delivered .. | .notFound | .unreadable => True

/-- A transfer, or an end of it all. -/
def Prepared : Fetch → Prop
  | .perform => True
  | fetch => ∃ result ≤ 0, fetch = .returns result

theorem classifyInProgressSegmentResponse_eq_ok {transferOk : Bool} {httpCode : Int}
    {refreshed : Bool}
    (h : classifyInProgressSegmentResponse transferOk httpCode refreshed = .ok) :
    transferOk = true ∧ httpCode = 200 := by
  unfold classifyInProgressSegmentResponse isTransientReadFailure at h
  grind

theorem classifyInProgressSegmentResponse_refreshed (transferOk : Bool) (httpCode : Int) :
    classifyInProgressSegmentResponse transferOk httpCode true ≠ .refreshApiKeyAndRetry := by
  unfold classifyInProgressSegmentResponse
  grind

theorem classifyInProgressSegmentResponse_refresh {transferOk : Bool} {httpCode : Int}
    {refreshed : Bool}
    (h : classifyInProgressSegmentResponse transferOk httpCode refreshed =
      .refreshApiKeyAndRetry) : refreshed = false := by
  unfold classifyInProgressSegmentResponse at h
  grind

section Fetch

variable {content : ByteString → ByteString} {s : InProgressStream} {read : RecordingRead}
  {now start : Int} {size transientFailures : Nat} {answer : SegmentAnswer}
  {stillThere aborted : Bool}

theorem FetchLeaves.after {s' : InProgressStream} {x : InProgressStream × Fetch}
    (hkept : Kept content s s') (hposition : s'.position = s.position)
    (h : FetchLeaves content read s' x) : FetchLeaves content read s x := by
  cases h with
  | rests h => exact .rests ⟨hkept.trans h.kept, h.position.trans hposition, h.nothing⟩
  | delivers hkept' hread hposition' hwant hbytes =>
      exact .delivers (hkept.trans hkept') (hposition ▸ hread) (hposition ▸ hposition') hwant hbytes

/-- A part of the cached bytes. -/
theorem fetchLeaves_copyOut (hread : s.position = read.position)
    (hcached : s.cachedSegmentBytes <+:
      (content read.segment.url).take read.segment.byteSize.toNat) :
    FetchLeaves content read s (s.copyOut size read) := by
  unfold copyOut
  split
  · exact .rests (.refl (by simp))
  · next wantSize hwant =>
      unfold segmentReadSize at hwant
      split at hwant
      · next hin =>
          have hlength : ((s.cachedSegmentBytes.drop read.offsetInSegment.toNat).take
              wantSize.toNat).length = wantSize := by
            obtain rfl := Option.some.inj hwant
            rw [List.length_take, List.length_drop]
            omega
          refine .delivers ⟨rfl, rfl, rfl, id⟩ hread ?_ hlength.symm ?_
          · show s.position + wantSize = _
            rw [hlength]
          · exact (List.take_prefix _ _).trans (hcached.drop _)
      · contradiction

theorem decided_copyOut : Decided now start transientFailures (s.copyOut size read).2 := by
  unfold copyOut
  split
  · exact Int.le_refl 0
  · trivial

theorem rests_prepare (handleReady : Bool) : Rests content s (s.prepare handleReady) := by
  unfold prepare
  split <;> exact ⟨⟨rfl, rfl, rfl, id⟩, rfl, by simp⟩

theorem prepared_prepare (handleReady : Bool) : Prepared (s.prepare handleReady).2 := by
  unfold prepare
  split
  · trivial
  · exact ⟨-1, by decide, rfl⟩

theorem rests_failPermanently : Rests content s (s.failPermanently now) := by
  unfold failPermanently
  dsimp only
  split <;> exact ⟨⟨rfl, rfl, rfl, id⟩, rfl, by simp⟩

theorem decided_failPermanently :
    Decided now start transientFailures (s.failPermanently now).2 := by
  unfold failPermanently
  dsimp only
  split
  · trivial
  · show (-1 : Int) ≤ 0
    decide

/-- **The first section**: the bytes that are cached at its offset are its own. -/
theorem fetchLeaves_beginFetch {handleReady : Bool} (hthere : stillThere = true → s.position = read.position)
    (hfilled : s.toInProgressRecordingStreamState.Filled) (hcaches : Caches content s)
    (hreads : s.Reads read) :
    FetchLeaves content read s (s.beginFetch size stillThere handleReady read) := by
  unfold beginFetch
  split
  · exact .rests (.refl (by simp))
  · next hstill =>
      split
      · next hoffset =>
          have hstart := hreads.start
          have hinside := hreads.inside
          have hpos : 0 < read.segment.byteSize := by omega
          have hfound : ∀ seg ∈ s.segments, seg.byteOffset = read.segment.byteOffset →
              0 < seg.byteSize → findRecordingSegment read.segment.byteOffset s.segments = some seg :=
            fun seg hmem heq hsize =>
              findRecordingSegment_eq hfilled hmem (Int.le_of_eq heq) (by omega)
          have hmine := hfound read.segment hreads.segment rfl hpos
          have hnonneg : s.cachedSegmentByteOffset ≠ -1 := by
            have hbytes : read.segment ∈ s.segments.filter fun seg => decide (0 < seg.byteSize) :=
              List.mem_filter.mpr ⟨hreads.segment, by simpa using hpos⟩
            have hbounds := Layout.LaidOut.mem hfilled hbytes
            omega
          obtain ⟨seg, hmem, heq, hsize, hcached⟩ := hcaches hnonneg
          obtain rfl : seg = read.segment :=
            Option.some.inj ((hfound seg hmem (heq.trans hoffset) hsize).symm.trans hmine)
          exact fetchLeaves_copyOut (hthere (by simpa using hstill)) hcached
      · split
        · exact .rests (.refl (by simp))
        · exact .rests (rests_prepare handleReady)

/-- It hands over what is cached, or begins a transfer, or ends. -/
theorem prepared_beginFetch {handleReady : Bool} :
    Prepared (s.beginFetch size stillThere handleReady read).2 ∨
      ∃ wantSize bytes,
        (s.beginFetch size stillThere handleReady read).2 = .delivered wantSize bytes := by
  have hends : ∀ result : Int, result ≤ 0 → Prepared (.returns result) := fun result hresult =>
    ⟨result, hresult, rfl⟩
  unfold beginFetch
  split
  · exact .inl (hends (-1) (by decide))
  split
  · unfold copyOut
    split
    · exact .inl (hends 0 (Int.le_refl 0))
    · exact .inr ⟨_, _, rfl⟩
  split
  · exact .inl (hends 0 (Int.le_refl 0))
  · exact .inl (prepared_prepare handleReady)

/-- What an answer that is not about the key leaves. -/
theorem fetchLeaves_settle {outcome : InProgressSegmentOutcome}
    (hkey : outcome ≠ .refreshApiKeyAndRetry)
    (hok : outcome = .ok → answer.transferOk = true ∧ answer.httpCode = 200)
    (hthere : stillThere = true → s.position = read.position) (hreads : s.Reads read)
    (hanswered : Answered content read answer) :
    FetchLeaves content read s
      (s.settle now size stillThere aborted read answer transientFailures start outcome) := by
  cases outcome with
  | refreshApiKeyAndRetry => exact absurd rfl hkey
  | segmentNotFound => exact .rests (.refl (by simp))
  | failPermanently => exact .rests rests_failPermanently
  | retryTransient =>
      unfold settle
      dsimp only
      split <;> exact .rests ⟨⟨rfl, rfl, rfl, id⟩, rfl, by simp⟩
  | ok =>
      obtain ⟨htransfer, hcode⟩ := hok rfl
      have hbytes := hanswered htransfer hcode
      have hstart := hreads.start
      have hinside := hreads.inside
      unfold settle
      dsimp only
      have hkept : Kept content s
          { s with
            cachedSegmentBytes := answer.written
            cachedSegmentByteOffset := read.segment.byteOffset
            nextHlsKeepAliveAt := nextHlsKeepAliveDueAt now .refreshed } :=
        ⟨rfl, rfl, rfl, fun _ _ => ⟨read.segment, hreads.segment, rfl, by omega, hbytes⟩⟩
      split
      · next hstill => exact FetchLeaves.after hkept rfl (fetchLeaves_copyOut (hthere hstill) hbytes)
      · exact .rests ⟨hkept, rfl, by simp⟩

theorem decided_settle {outcome : InProgressSegmentOutcome} :
    Decided now start transientFailures
      (s.settle now size stillThere aborted read answer transientFailures start outcome).2 := by
  have hminus : (-1 : Int) ≤ 0 := by decide
  cases outcome with
  | segmentNotFound => trivial
  | failPermanently => exact decided_failPermanently
  | retryTransient =>
      unfold settle
      dsimp only
      split
      · next hgo =>
          simp only [Bool.and_eq_true, shouldKeepRetryingTransientRead, decide_eq_true_eq] at hgo
          exact ⟨rfl, hgo.2⟩
      · exact hminus
  | ok | refreshApiKeyAndRetry =>
      unfold settle
      dsimp only
      split
      · exact decided_copyOut
      · exact hminus

/-- What a transfer leaves. -/
theorem fetchLeaves_endFetch {apiKeyRefreshed : Bool}
    (hthere : stillThere = true → s.position = read.position) (hreads : s.Reads read)
    (hanswered : Answered content read answer) :
    FetchLeaves content read s
      (s.endFetch now size stillThere aborted read answer apiKeyRefreshed transientFailures
        start) := by
  unfold endFetch
  split
  · exact .rests (.refl (by simp))
  · next outcome hkey =>
      exact fetchLeaves_settle hkey classifyInProgressSegmentResponse_eq_ok hthere hreads hanswered

/-- It asks for the key at most once. -/
theorem decided_endFetch {apiKeyRefreshed : Bool} :
    let fetch := (s.endFetch now size stillThere aborted read answer apiKeyRefreshed
      transientFailures start).2
    fetch = .refreshKey answer ∧ apiKeyRefreshed = false ∨
      Decided now start transientFailures fetch := by
  intro fetch
  simp only [fetch]
  unfold endFetch
  split
  · next hkey => exact .inl ⟨rfl, classifyInProgressSegmentResponse_refresh hkey⟩
  · exact .inr decided_settle

/-- What is left after the key was asked for. -/
theorem fetchLeaves_afterKey {handleReady regenerated : Bool}
    (hthere : stillThere = true → s.position = read.position) (hreads : s.Reads read)
    (hanswered : Answered content read answer) :
    FetchLeaves content read s
      (s.afterKey now size stillThere aborted handleReady regenerated read answer
        transientFailures start) := by
  unfold afterKey
  split
  · exact .rests (rests_prepare handleReady)
  · exact fetchLeaves_settle (classifyInProgressSegmentResponse_refreshed _ _)
      classifyInProgressSegmentResponse_eq_ok hthere hreads hanswered

theorem decided_afterKey {handleReady regenerated : Bool} :
    let fetch := (s.afterKey now size stillThere aborted handleReady regenerated read answer
      transientFailures start).2
    regenerated = true ∧ Prepared fetch ∨ Decided now start transientFailures fetch := by
  intro fetch
  simp only [fetch]
  unfold afterKey
  split
  · next hregenerated => exact .inl ⟨hregenerated, prepared_prepare handleReady⟩
  · exact .inr decided_settle

theorem rests_afterNotFound : Rests content s (s.afterNotFound now) := by
  unfold afterNotFound
  split
  · exact .refl (by simp)
  · exact rests_failPermanently

theorem afterNotFound_ends :
    (s.afterNotFound now).2 = .unreadable ∨ ∃ result ≤ 0, (s.afterNotFound now).2 = .returns result := by
  unfold afterNotFound failPermanently
  dsimp only
  split
  · exact .inr ⟨0, Int.le_refl 0, rfl⟩
  · split
    · exact .inl rfl
    · exact .inr ⟨-1, by decide, rfl⟩

end Fetch

/-! ## the end of a refresh -/

section Refresh

variable {s : InProgressStream} {source : InProgressSource} {lookup : RecordingLookup}
  {playlistText : ByteString} {pending : List M3u8SegmentEntry} {sizes : List Int}
  {probedCount : Nat} {askedAt now : Int} {coldStart : Bool}

/-- The sizes that probes of the first entries give. -/
def SizesOf (pending : List M3u8SegmentEntry) (probedCount : Nat) (sizes : List Int) : Prop :=
  ∃ probe : Nat → Int,
    sizes = (List.range pending.length).map fun i => if i < probedCount then probe i else -1

/-- A refresh that is over at `now`, with what it was answered. -/
def refreshOf (askedAt now : Int) (coldStart : Bool) (lookup : RecordingLookup)
    (playlist : PlaylistFetch) (sizes : List Int) : InProgressRefresh where
  now := askedAt
  coldStart
  lookup
  playlist
  probe i := sizes.getD i (-1)
  probedAt := now
  armedAt := now

theorem probedEntries_eq {tracker : UnprobeableSegmentTracker}
    (hsizes : SizesOf pending (probeCount tracker pending) sizes) (askedAt now : Int)
    (coldStart : Bool) (lookup : RecordingLookup) (playlist : PlaylistFetch) :
    probedEntries tracker pending sizes (probeCount tracker pending) now =
      probeEntries tracker pending (refreshOf askedAt now coldStart lookup playlist sizes) := by
  have hprobed : sizes =
      probedSizes tracker pending (refreshOf askedAt now coldStart lookup playlist sizes) := by
    obtain ⟨probe, hprobe⟩ := hsizes
    apply List.ext_getElem?
    intro i
    rw [probedSizes, List.getElem?_map]
    by_cases hi : i < pending.length
    · rw [List.getElem?_range hi]
      have hget : sizes[i]? = some (if i < probeCount tracker pending then probe i else -1) := by
        rw [hprobe, List.getElem?_map, List.getElem?_range hi]
        rfl
      rw [hget]
      simp only [Option.map_some, refreshOf, List.getD, hget, Option.getD_some]
      split <;> rfl
    · have hlength : sizes.length = pending.length := by simp [hprobe]
      rw [List.getElem?_eq_none (by omega), List.getElem?_eq_none (by simpa using hi)]
      rfl
  cases hpending : pending with
  | nil => rfl
  | cons leading rest =>
      rw [hpending] at hprobed
      unfold probedEntries probeEntries
      rw [← hprobed]
      rfl

/-- **The merge** does what a refresh does as a whole. -/
theorem mergeProbed_space
    (hstays : s.contentGone = false)
    (hlookup : shouldSkipPlaylistAfterUnansweredLookup coldStart (!s.segments.isEmpty) lookup =
      false)
    (hpending : pending = source.pending playlistText s.segments.length)
    (hcount : probedCount = probeCount s.unprobeableSegment pending)
    (hsizes : SizesOf pending probedCount sizes) :
    (s.mergeProbed source askedAt now lookup playlistText pending
        (probedEntries s.unprobeableSegment pending sizes probedCount
          now)).toInProgressRecordingStreamState =
      s.toInProgressRecordingStreamState.refresh source
        (refreshOf askedAt now coldStart lookup (.fetched playlistText) sizes) := by
  subst hcount
  rw [probedEntries_eq hsizes askedAt now coldStart lookup (.fetched playlistText), hpending]
  simp only [refresh, refreshOf, hstays, hlookup, Bool.false_eq_true, if_false]
  rfl

/-- So does the end of one without a playlist. -/
theorem withoutPlaylist_space {wasNotFound : Bool} (hstays : s.contentGone = false)
    (hlookup : shouldSkipPlaylistAfterUnansweredLookup coldStart (!s.segments.isEmpty) lookup =
      false) :
    (s.withoutPlaylist lookup wasNotFound).toInProgressRecordingStreamState =
      s.toInProgressRecordingStreamState.refresh source
        (refreshOf askedAt now coldStart lookup (.failed wasNotFound) []) := by
  have hgoes : ¬ (s.contentGone = true) := by simp [hstays]
  have hasks : ¬ (shouldSkipPlaylistAfterUnansweredLookup coldStart (!s.segments.isEmpty) lookup =
      true) := by simp [hlookup]
  unfold refresh withoutPlaylist
  rw [if_neg hgoes, refreshOf, if_neg hasks]
  cases wasNotFound <;> simp only [Bool.false_eq_true, if_false, if_true] <;> split <;> rfl

/-- The other members of a stream are left as they are. -/
structure SameReader (s s' : InProgressStream) : Prop where
  isOpen : s'.isOpen = s.isOpen
  recordingId : s'.recordingId = s.recordingId
  position : s'.position = s.position
  cachedOffset : s'.cachedSegmentByteOffset = s.cachedSegmentByteOffset
  cachedBytes : s'.cachedSegmentBytes = s.cachedSegmentBytes

theorem sameReader_withoutPlaylist (wasNotFound : Bool) :
    SameReader s (s.withoutPlaylist lookup wasNotFound) := by
  unfold withoutPlaylist
  cases wasNotFound <;> simp only [Bool.false_eq_true, if_false, if_true] <;> split <;>
    exact ⟨rfl, rfl, rfl, rfl, rfl⟩

theorem segments_withoutPlaylist (wasNotFound : Bool) :
    (s.withoutPlaylist lookup wasNotFound).segments = s.segments := by
  unfold withoutPlaylist
  cases wasNotFound <;> simp only [Bool.false_eq_true, if_false, if_true] <;> split <;> rfl

theorem segments_prefix_mergeProbed (probed : ProbedEntries) :
    s.segments <+:
      (s.mergeProbed source askedAt now lookup playlistText pending probed).segments := by
  obtain ⟨-, -, new, hnew, -⟩ := segments_foldl_append source
    { s.toInProgressRecordingStreamState with unprobeableSegment := probed.tracker }
    ((pending.zip probed.sizes).take probed.mergedCount)
  exact ⟨new, hnew.symm⟩

theorem SameReader.caches {content : ByteString → ByteString} {s' : InProgressStream}
    (h : SameReader s s') (hsegments : s.segments <+: s'.segments) (hcaches : Caches content s) :
    Caches content s' := by
  intro hcached
  rw [h.cachedOffset] at hcached
  obtain ⟨seg, hmem, heq, hsize, hbytes⟩ := hcaches hcached
  exact ⟨seg, hsegments.subset hmem, heq.trans h.cachedOffset.symm, hsize, h.cachedBytes ▸ hbytes⟩

end Refresh

end InProgressStream

end DispatcharrPvr
