import DispatcharrPvr.InProgressRecording.MergeRuns

/-!
# InProgressRecording.SegmentCache

The segments of a recording kept across its streams: a refresh writes what it
merged to the cache, an open seeds the new stream from it.  An entry is always
what the recording's last stream holds, so that the next one goes on from there,
its count of failed probes alone started over.
-/

namespace DispatcharrPvr

open InProgressRecordingStreamState

/-! ## the cache -/

/-- `InProgressRecordingSegmentCache`. -/
structure InProgressRecordingSegmentCache where
  segments : List InProgressRecordingSegmentInfo := []
  totalBytes : Int := 0
  totalDurationMs : Int := 0
  lastUpdated : Int := 0
deriving DecidableEq, Repr

/-- `m_inProgressSegmentCache`, by the recording's id. -/
abbrev SegmentCache := Int → Option InProgressRecordingSegmentCache

/-- `ShouldReseedInProgressSegmentCache`. -/
def shouldReseedInProgressSegmentCache (cachedSegmentCount newlyProbedSegmentCount
    currentSegmentCount : Nat) : Bool :=
  decide (cachedSegmentCount + newlyProbedSegmentCount ≠ currentSegmentCount)

/-- `kInProgressSegmentCacheTtl`, 24 h. -/
def inProgressSegmentCacheTtl : Int := 86400000000000

namespace SegmentCache

/-- The entry of one recording replaced, or erased. -/
def set (cache : SegmentCache) (recordingId : Int)
    (entry : Option InProgressRecordingSegmentCache) : SegmentCache :=
  fun id => if id = recordingId then entry else cache id

/-- The entries that were touched within the time to live. -/
def prune (cache : SegmentCache) (now : Int) : SegmentCache := fun id =>
  (cache id).filter fun entry => !decide (inProgressSegmentCacheTtl < now - entry.lastUpdated)

/-- The write-back at the end of a refresh that fetched a playlist. -/
def writeBack (cache : SegmentCache) (recordingId : Int) (newSegmentsProbed : Nat)
    (st : InProgressRecordingStreamState) (now : Int) : SegmentCache :=
  if newSegmentsProbed > 0 ∨ st.finished then
    let written :=
      if st.finished then cache.set recordingId none
      else
        let cached := (cache recordingId).getD {}
        cache.set recordingId (some
          { segments :=
              if shouldReseedInProgressSegmentCache cached.segments.length newSegmentsProbed
                  st.segments.length then st.segments
              else cached.segments ++ st.segments.drop (st.segments.length - newSegmentsProbed)
            totalBytes := st.totalBytes
            totalDurationMs := st.totalDurationMs
            lastUpdated := now })
    written.prune now
  else cache

end SegmentCache

/-! ## the client -/

/-- The cache, and the open stream with its recording's id. -/
structure InProgressClient where
  cache : SegmentCache := fun _ => none
  stream : Option (Int × InProgressRecordingStreamState) := none

/-- What is done with the stream.  An open that gives up closes it again. -/
inductive InProgressEvent where
  | openStream (recordingId : Int)
  | refresh (r : InProgressRefresh)
  | close

namespace InProgressClient

/-- `CloseInProgressRecordingStream`. -/
def close (client : InProgressClient) : InProgressClient :=
  { client with stream := none }

/-- `OpenInProgressRecordingStream` up to its cold-start refreshes. -/
def openStream (client : InProgressClient) (recordingId : Int) : InProgressClient :=
  let client := client.close
  let seeded : InProgressRecordingStreamState :=
    match client.cache recordingId with
    | none => {}
    | some entry =>
        { segments := entry.segments
          totalBytes := entry.totalBytes
          totalDurationMs := entry.totalDurationMs }
  { client with stream := some (recordingId, seeded) }

/-- `RefreshInProgressRecordingManifest` with its cache. -/
def refresh (source : InProgressSource) (client : InProgressClient) (r : InProgressRefresh) :
    InProgressClient :=
  match client.stream with
  | none => client
  | some (recordingId, st) =>
      let source := { source with recordingId }
      let after := st.refresh source r
      { stream := some (recordingId, after)
        cache :=
          match fetchedText (st, r) with
          | none =>
              if after.contentGone && !st.contentGone then client.cache.set recordingId none
              else client.cache
          | some playlistText =>
              let pending := source.pending playlistText st.segments.length
              client.cache.writeBack recordingId
                (probeEntries st.unprobeableSegment pending r).mergedCount after r.now }

def next (source : InProgressSource) (client : InProgressClient) :
    InProgressEvent → InProgressClient
  | .openStream recordingId => client.openStream recordingId
  | .refresh r => client.refresh source r
  | .close => client.close

end InProgressClient

/-- The client, and each recording's last stream, as it is or as it was when it
was closed. -/
structure StreamHistory where
  client : InProgressClient := {}
  last : Int → Option InProgressRecordingStreamState := fun _ => none

namespace StreamHistory

def next (source : InProgressSource) (history : StreamHistory) (event : InProgressEvent) :
    StreamHistory :=
  let client := history.client.next source event
  { client
    last :=
      match client.stream with
      | none => history.last
      | some (recordingId, st) => fun id =>
          if id = recordingId then some st else history.last id }

/-- The events, one after the other. -/
def after (source : InProgressSource) (events : List InProgressEvent) : StreamHistory :=
  events.foldl (next source) {}

end StreamHistory

/-! ## the invariant -/

/-- An entry holds what the recording's last stream holds, which is neither
finished nor empty. -/
structure InStep (entry : InProgressRecordingSegmentCache) (held : InProgressRecordingStreamState) :
    Prop where
  segments : entry.segments = held.segments
  totalBytes : entry.totalBytes = held.totalBytes
  totalDurationMs : entry.totalDurationMs = held.totalDurationMs
  some_segment : held.segments ≠ []
  not_finished : held.finished = false
  not_gone : held.contentGone = false

/-- Every entry is in step, and the open stream is its recording's last one. -/
structure Cached (history : StreamHistory) : Prop where
  in_step : ∀ recordingId entry, history.client.cache recordingId = some entry →
    ∃ held, history.last recordingId = some held ∧ InStep entry held
  is_last : ∀ recordingId st, history.client.stream = some (recordingId, st) →
    history.last recordingId = some st

namespace SegmentCache

theorem prune_eq_some {cache : SegmentCache} {now id : Int}
    {entry : InProgressRecordingSegmentCache} (h : cache.prune now id = some entry) :
    cache id = some entry :=
  (Option.filter_eq_some_iff.mp h).1

/-- The entry a write-back leaves for the recording. -/
theorem writeBack_self {cache : SegmentCache} {recordingId now : Int} {newSegmentsProbed : Nat}
    {st : InProgressRecordingStreamState} {entry : InProgressRecordingSegmentCache}
    (h : cache.writeBack recordingId newSegmentsProbed st now recordingId = some entry) :
    (newSegmentsProbed = 0 ∧ st.finished = false ∧ cache recordingId = some entry) ∨
    (0 < newSegmentsProbed ∧ st.finished = false ∧ entry.totalBytes = st.totalBytes ∧
      entry.totalDurationMs = st.totalDurationMs ∧
      (entry.segments = st.segments ∨
        entry.segments = ((cache recordingId).getD {}).segments ++
            st.segments.drop (st.segments.length - newSegmentsProbed) ∧
          ((cache recordingId).getD {}).segments.length + newSegmentsProbed =
            st.segments.length)) := by
  unfold writeBack at h
  by_cases hwrites : newSegmentsProbed > 0 ∨ st.finished
  · rw [if_pos hwrites] at h
    have hwritten := prune_eq_some h
    cases hfinished : st.finished with
    | true => simp [hfinished, set] at hwritten
    | false =>
        have hnew : 0 < newSegmentsProbed := by simpa [hfinished] using hwrites
        simp only [hfinished, Bool.false_eq_true, if_false, set, if_true, Option.some.injEq]
          at hwritten
        subst hwritten
        refine .inr ⟨hnew, rfl, rfl, rfl, ?_⟩
        by_cases hcount : ((cache recordingId).getD {}).segments.length + newSegmentsProbed =
            st.segments.length
        · right
          simp [shouldReseedInProgressSegmentCache, hcount]
        · left
          simp [shouldReseedInProgressSegmentCache, hcount]
  · rw [if_neg hwrites] at h
    refine .inl ⟨by omega, ?_, h⟩
    simpa using fun hfinished => hwrites (.inr hfinished)

/-- A write-back keeps no entry that was not there, of another recording. -/
theorem writeBack_other {cache : SegmentCache} {recordingId now id : Int} {newSegmentsProbed : Nat}
    {st : InProgressRecordingStreamState} {entry : InProgressRecordingSegmentCache}
    (hother : id ≠ recordingId)
    (h : cache.writeBack recordingId newSegmentsProbed st now id = some entry) :
    cache id = some entry := by
  unfold writeBack at h
  split at h
  · have hwritten := prune_eq_some h
    split at hwritten
    · rwa [set, if_neg hother] at hwritten
    · rwa [set, if_neg hother] at hwritten
  · exact h

end SegmentCache

variable {source : InProgressSource}

/-- A fetched playlist leaves the content there. -/
theorem contentGone_of_fetched (source : InProgressSource)
    {st : InProgressRecordingStreamState} {r : InProgressRefresh}
    {playlistText : ByteString} (h : fetchedText (st, r) = some playlistText) :
    st.contentGone = false ∧ (st.refresh source r).contentGone = false := by
  simp only [fetchedText] at h
  split at h
  · contradiction
  · next hfetches =>
      have hparts : st.contentGone = false ∧
          shouldSkipPlaylistAfterUnansweredLookup r.coldStart (!st.segments.isEmpty) r.lookup =
            false := by
        simpa using hfetches
      refine ⟨hparts.1, ?_⟩
      cases hplaylist : r.playlist with
      | failed wasNotFound => simp [hplaylist] at h
      | fetched text =>
          have hmerge := (segments_merge source st text r).2.1
          simpa [refresh, hparts.1, hparts.2, hplaylist] using hmerge

/-- Without a playlist, a stream that has segments is finished only when its
content is gone. -/
theorem not_finished_of_not_fetched {st : InProgressRecordingStreamState} {r : InProgressRefresh}
    (h : fetchedText (st, r) = none) (hsegments : st.segments ≠ []) (hfinished : st.finished = false)
    (hthere : (st.refresh source r).contentGone = false) :
    (st.refresh source r).finished = false := by
  unfold refresh at hthere ⊢
  split
  · exact hfinished
  · next hgone =>
      rw [if_neg hgone] at hthere
      split
      · exact hfinished
      · next hskip =>
          rw [if_neg hskip] at hthere
          cases hplaylist : r.playlist with
          | fetched playlistText =>
              simp only [fetchedText, hplaylist] at h
              rw [if_neg (by simp [hgone, hskip])] at h
              contradiction
          | failed wasNotFound =>
              have hsome : st.segments.isEmpty = false := by simpa using hsegments
              simp only [hplaylist] at hthere ⊢
              split at hthere
              · contradiction
              · next hcontent =>
                  rw [if_neg hcontent]
                  cases wasNotFound with
                  | false => exact hfinished
                  | true =>
                      cases hlookup : r.lookup with
                      | failed httpStatus authenticationNotCompleted => exact hfinished
                      | answered isInProgress =>
                          cases isInProgress with
                          | true => rfl
                          | false => simp [isInProgressContentGone, hsome, hlookup] at hcontent

/-! ## one event -/

/-- A refresh keeps its recording's entry in step. -/
theorem InStep.refresh {client : InProgressClient} {recordingId : Int}
    {st : InProgressRecordingStreamState} (hopen : client.stream = some (recordingId, st))
    (hstep : ∀ entry, client.cache recordingId = some entry → InStep entry st)
    (r : InProgressRefresh) {entry : InProgressRecordingSegmentCache}
    (hentry : (client.refresh source r).cache recordingId = some entry) :
    InStep entry (st.refresh { source with recordingId } r) := by
  simp only [InProgressClient.refresh, hopen] at hentry
  cases hfetched : fetchedText (st, r) with
  | none =>
      obtain ⟨hsegments, hbytes, htime, -⟩ :=
        refresh_of_not_fetched { source with recordingId } hfetched
      simp only [hfetched] at hentry
      split at hentry
      · simp [SegmentCache.set] at hentry
      · next hstays =>
          obtain ⟨hsame, hsameBytes, hsameTime, hsome, hfinished, hgone⟩ := hstep entry hentry
          have hthere : (st.refresh { source with recordingId } r).contentGone = false := by
            simpa [hgone] using hstays
          refine ⟨by rw [hsame, hsegments], by rw [hsameBytes, hbytes], by rw [hsameTime, htime],
            by rwa [hsegments], ?_, hthere⟩
          exact not_finished_of_not_fetched hfetched hsome hfinished hthere
  | some playlistText =>
      obtain ⟨hsegments, hbytes, htime, -⟩ :=
        refresh_of_fetched { source with recordingId } hfetched
      obtain ⟨-, hthere⟩ := contentGone_of_fetched { source with recordingId } hfetched
      obtain ⟨-, -, new, happended, hlength⟩ :=
        segments_merge { source with recordingId } st playlistText r
      rw [← hsegments] at happended
      simp only [hfetched] at hentry
      rcases SegmentCache.writeBack_self hentry with ⟨hnone, hopen', hkept⟩ |
        ⟨hpos, hopen', htotal, hduration, hwritten⟩
      · -- nothing merged
        obtain ⟨hsame, hsameBytes, hsameTime, hsome, -, -⟩ := hstep entry hkept
        rw [hnone] at hlength
        obtain rfl : new = [] := List.length_eq_zero_iff.mp hlength
        rw [List.append_nil] at happended
        have hmerge : st.merge { source with recordingId } playlistText r =
            { st with unprobeableSegment := (probeEntries st.unprobeableSegment
                (InProgressSource.pending { source with recordingId } playlistText
                  st.segments.length) r).tracker } := by
          simp [merge, hnone]
        rw [hmerge] at hbytes htime
        exact ⟨by rw [hsame, happended], by rw [hsameBytes, hbytes], by rw [hsameTime, htime],
          by rwa [happended], hopen', hthere⟩
      · have hsome : (st.refresh { source with recordingId } r).segments ≠ [] := by
          rw [happended]
          intro hnil
          have hcount := congrArg List.length hnil
          rw [List.length_append, List.length_nil] at hcount
          omega
        refine ⟨?_, htotal, hduration, hsome, hopen', hthere⟩
        rcases hwritten with hall | ⟨hsuffix, hcount⟩
        · exact hall
        · -- the entry there was is the stream as it was before
          have hcached : ((client.cache recordingId).getD {}).segments = st.segments := by
            cases hbefore : client.cache recordingId with
            | some before => exact (hstep before hbefore).segments
            | none =>
                rw [hbefore, happended, List.length_append] at hcount
                have hempty : st.segments.length = 0 := by
                  change 0 + _ = _ at hcount
                  omega
                exact (List.length_eq_zero_iff.mp hempty).symm
          rw [hsuffix, hcached, ← hlength, happended]
          simp

/-- A refresh leaves the entries of other recordings, or drops them. -/
theorem cache_refresh_other {client : InProgressClient} {recordingId id : Int}
    {st : InProgressRecordingStreamState} (hopen : client.stream = some (recordingId, st))
    (hother : id ≠ recordingId) (r : InProgressRefresh) {entry : InProgressRecordingSegmentCache}
    (hentry : (client.refresh source r).cache id = some entry) :
    client.cache id = some entry := by
  simp only [InProgressClient.refresh, hopen] at hentry
  cases hfetched : fetchedText (st, r) with
  | none =>
      simp only [hfetched] at hentry
      split at hentry
      · rwa [SegmentCache.set, if_neg hother] at hentry
      · exact hentry
  | some playlistText =>
      simp only [hfetched] at hentry
      exact SegmentCache.writeBack_other hother hentry

theorem Cached.initial : Cached {} := by
  constructor <;> simp

theorem Cached.next {history : StreamHistory} (h : Cached history) (event : InProgressEvent) :
    Cached (history.next source event) := by
  cases event with
  | close =>
      refine ⟨h.in_step, fun recordingId st hopen => ?_⟩
      simp [StreamHistory.next, InProgressClient.next, InProgressClient.close] at hopen
  | openStream recordingId =>
      refine ⟨fun id entry hentry => ?_, fun id st hopen => ?_⟩
      · have hbefore : history.client.cache id = some entry := hentry
        obtain ⟨held, hlast, hstep⟩ := h.in_step id entry hbefore
        by_cases hid : id = recordingId
        · subst hid
          refine ⟨{ segments := entry.segments, totalBytes := entry.totalBytes,
                    totalDurationMs := entry.totalDurationMs }, ?_,
            ⟨rfl, rfl, rfl, ?_, rfl, rfl⟩⟩
          · simp [StreamHistory.next, InProgressClient.next, InProgressClient.openStream,
              InProgressClient.close, hbefore]
          · rw [hstep.segments]
            exact hstep.some_segment
        · refine ⟨held, ?_, hstep⟩
          simp [StreamHistory.next, InProgressClient.next, InProgressClient.openStream, hid, hlast]
      · simp only [StreamHistory.next, InProgressClient.next, InProgressClient.openStream,
          Option.some.injEq, Prod.mk.injEq] at hopen
        obtain ⟨rfl, rfl⟩ := hopen
        simp [StreamHistory.next, InProgressClient.next, InProgressClient.openStream]
  | refresh r =>
      cases hopen : history.client.stream with
      | none =>
          have hsame : history.next source (.refresh r) = history := by
            simp [StreamHistory.next, InProgressClient.next, InProgressClient.refresh, hopen]
          rwa [hsame]
      | some opened =>
          obtain ⟨recordingId, st⟩ := opened
          have hlast := h.is_last recordingId st hopen
          have hstream : (history.client.refresh source r).stream =
              some (recordingId, st.refresh { source with recordingId } r) := by
            simp [InProgressClient.refresh, hopen]
          refine ⟨fun id entry hentry => ?_, fun id after hafter => ?_⟩
          · by_cases hid : id = recordingId
            · subst hid
              refine ⟨_, ?_, InStep.refresh hopen ?_ r hentry⟩
              · simp [StreamHistory.next, InProgressClient.next, hstream]
              · intro before hbefore
                obtain ⟨held, hheld, hstep⟩ := h.in_step id before hbefore
                obtain rfl : held = st := Option.some.inj (hheld.symm.trans hlast)
                exact hstep
            · obtain ⟨held, hheld, hstep⟩ :=
                h.in_step id entry (cache_refresh_other hopen hid r hentry)
              refine ⟨held, ?_, hstep⟩
              simp [StreamHistory.next, InProgressClient.next, hstream, hid, hheld]
          · have hnow : (history.client.refresh source r).stream = some (id, after) := hafter
            obtain ⟨rfl, rfl⟩ : recordingId = id ∧ _ = after := by
              simpa using hstream.symm.trans hnow
            simp [StreamHistory.next, InProgressClient.next, hstream]

theorem cached_after (events : List InProgressEvent) : Cached (StreamHistory.after source events) :=
  Runs.foldl_history (I := fun _ history => Cached history) Cached.initial
    (fun h => h.next _) events

/-! ## streams that hold the same -/

/-- Two streams with the same segments, totals and failing segment. -/
structure SameSegments (st st' : InProgressRecordingStreamState) : Prop where
  segments : st.segments = st'.segments
  totalBytes : st.totalBytes = st'.totalBytes
  totalDurationMs : st.totalDurationMs = st'.totalDurationMs
  unprobeableSegment : st.unprobeableSegment = st'.unprobeableSegment
  contentGone : st.contentGone = st'.contentGone

theorem SameSegments.append {st st' : InProgressRecordingStreamState} (h : SameSegments st st')
    (sized : M3u8SegmentEntry × Int) :
    SameSegments (st.append source sized) (st'.append source sized) := by
  obtain ⟨hsegments, hbytes, htime, htracker, hgone⟩ := h
  constructor <;> simp [InProgressRecordingStreamState.append, *]

theorem SameSegments.foldl_append {st st' : InProgressRecordingStreamState}
    (h : SameSegments st st') (sized : List (M3u8SegmentEntry × Int)) :
    SameSegments (sized.foldl (InProgressRecordingStreamState.append source) st)
      (sized.foldl (InProgressRecordingStreamState.append source) st') := by
  induction sized generalizing st st' with
  | nil => exact h
  | cons first sized ih => exact ih (h.append first)

/-- The flag and the wait change nothing about what is merged. -/
theorem SameSegments.refresh {st st' : InProgressRecordingStreamState} (h : SameSegments st st')
    (r : InProgressRefresh) : SameSegments (st.refresh source r) (st'.refresh source r) := by
  obtain ⟨hsegments, hbytes, htime, htracker, hgone⟩ := h
  unfold InProgressRecordingStreamState.refresh
  rw [← hgone, ← hsegments]
  split
  · exact ⟨hsegments, hbytes, htime, htracker, hgone⟩
  · split
    · exact ⟨hsegments, hbytes, htime, htracker, hgone⟩
    · cases r.playlist with
      | failed wasNotFound =>
          simp only
          split
          · exact ⟨rfl, hbytes, htime, htracker, rfl⟩
          · exact ⟨rfl, hbytes, htime, htracker, rfl⟩
      | fetched playlistText =>
          have hmerge : SameSegments (st.merge source playlistText r)
              (st'.merge source playlistText r) := by
            unfold merge
            rw [← hsegments, ← htracker]
            refine SameSegments.foldl_append ?_ _
            exact ⟨rfl, hbytes, htime, rfl, hgone⟩
          exact ⟨hmerge.segments, hmerge.totalBytes, hmerge.totalDurationMs,
            hmerge.unprobeableSegment, hmerge.contentGone⟩

theorem SameSegments.refreshes {st st' : InProgressRecordingStreamState} (h : SameSegments st st')
    (rs : List InProgressRefresh) :
    SameSegments (InProgressRecordingStreamState.refreshes source st rs)
      (InProgressRecordingStreamState.refreshes source st' rs) := by
  induction rs generalizing st st' with
  | nil => exact h
  | cons r rs ih => exact ih (h.refresh r)

/-! ## every run -/

/-- The refreshes of the open stream. -/
theorem stream_foldl_refresh {history : StreamHistory} {recordingId : Int}
    {st : InProgressRecordingStreamState} (hopen : history.client.stream = some (recordingId, st))
    (rs : List InProgressRefresh) :
    ((rs.map InProgressEvent.refresh).foldl (StreamHistory.next source) history).client.stream =
      some (recordingId, refreshes { source with recordingId } st rs) := by
  induction rs generalizing history st with
  | nil => exact hopen
  | cons r rs ih =>
      refine ih ?_
      simp [StreamHistory.next, InProgressClient.next, InProgressClient.refresh, hopen]

/-- **The segment cache.**  After any opens, refreshes and closes, an entry holds
exactly the segments and totals that its recording's last stream holds, or held
when it was closed; a stream opened from it has, after any refreshes, the
segments, offsets and totals of that last stream had it gone on through the same
refreshes, its count of failed probes started over; a recording without an
entry is opened with nothing, and one whose open stream is marked finished has
none. -/
theorem in_progress_segment_cache (source : InProgressSource) (events : List InProgressEvent)
    (recordingId : Int) :
    let before := StreamHistory.after source events
    (∀ entry, before.client.cache recordingId = some entry →
      ∃ held, before.last recordingId = some held ∧ entry.segments = held.segments ∧
        entry.totalBytes = held.totalBytes ∧ entry.totalDurationMs = held.totalDurationMs ∧
        ∀ rs, ∃ reopened,
          (StreamHistory.after source
            (events ++ .openStream recordingId :: rs.map .refresh)).client.stream =
              some (recordingId, reopened) ∧
          SameSegments reopened
            (refreshes { source with recordingId } { held with unprobeableSegment := {} } rs)) ∧
    (before.client.cache recordingId = none →
      (StreamHistory.after source (events ++ [.openStream recordingId])).client.stream =
        some (recordingId, {})) ∧
    ∀ st, before.client.stream = some (recordingId, st) → st.finished = true →
      before.client.cache recordingId = none := by
  intro before
  have hcached : Cached before := cached_after events
  refine ⟨fun entry hentry => ?_, fun hnone => ?_, fun st hopen hfinished => ?_⟩
  · obtain ⟨held, hlast, hstep⟩ := hcached.in_step recordingId entry hentry
    refine ⟨held, hlast, hstep.segments, hstep.totalBytes, hstep.totalDurationMs, fun rs => ?_⟩
    let seeded : InProgressRecordingStreamState :=
      { segments := entry.segments
        totalBytes := entry.totalBytes
        totalDurationMs := entry.totalDurationMs }
    have hopened : (before.next source (.openStream recordingId)).client.stream =
        some (recordingId, seeded) := by
      simp [StreamHistory.next, InProgressClient.next, InProgressClient.openStream,
        InProgressClient.close, hentry, seeded]
    have hsame : SameSegments seeded { held with unprobeableSegment := {} } :=
      ⟨hstep.segments, hstep.totalBytes, hstep.totalDurationMs, rfl, hstep.not_gone.symm⟩
    refine ⟨_, ?_, hsame.refreshes rs⟩
    rw [StreamHistory.after, List.foldl_append, List.foldl_cons]
    exact stream_foldl_refresh hopened rs
  · rw [StreamHistory.after, List.foldl_append]
    change (before.next source (.openStream recordingId)).client.stream = _
    simp [StreamHistory.next, InProgressClient.next, InProgressClient.openStream,
      InProgressClient.close, hnone]
  · cases hentry : before.client.cache recordingId with
    | none => rfl
    | some entry =>
        obtain ⟨held, hlast, hstep⟩ := hcached.in_step recordingId entry hentry
        obtain rfl : held = st := Option.some.inj (hlast.symm.trans (hcached.is_last _ _ hopen))
        exact absurd (hfinished.symm.trans hstep.not_finished) (by decide)

/-- The probe of the second of three segments fails once, then all answer.  The
stream that goes on probes the second alone, one that is closed and opened again
sizes the third as well. -/
theorem in_progress_segment_cache_retried :
    let watched := [.openStream 7, .refresh (exampleRefresh 0 [100])]
    let answered := exampleRefresh 8 [100, 100]
    let wentOn := (StreamHistory.after exampleSource (watched ++ [.refresh answered])).client
    let reopened := (StreamHistory.after exampleSource
      (watched ++ [.close, .openStream 7, .refresh answered])).client
    ((StreamHistory.after exampleSource watched).client.cache 7).isSome = true ∧
      wentOn.stream.map (·.2.totalBytes) = some 200 ∧
      reopened.stream.map (·.2.totalBytes) = some 300 := by
  decide +kernel

end DispatcharrPvr
