import DispatcharrPvr.InProgressRecording.Playback

/-!
# InProgressRecording.AddressSpace

The byte stream of a recording in progress.  After any opens, refreshes and
closes the segments with bytes fill it end to end, so that a position in it is
found in the one segment that has it.
-/

namespace DispatcharrPvr

open InProgressRecordingStreamState Layout

variable {source : InProgressSource}

namespace InProgressRecordingStreamState

variable {st st' : InProgressRecordingStreamState}

/-- The segments with bytes fill the stream from 0 on. -/
def Filled (st : InProgressRecordingStreamState) : Prop :=
  LaidOut InProgressRecordingSegmentInfo.byteOffset InProgressRecordingSegmentInfo.byteSize 0
    (st.segments.filter fun seg => decide (0 < seg.byteSize)) st.totalBytes

theorem Filled.initial : Filled {} := rfl

theorem Filled.congr (h : st.Filled) (hsegments : st'.segments = st.segments)
    (hbytes : st'.totalBytes = st.totalBytes) : st'.Filled := by
  unfold Filled
  rw [hsegments, hbytes]
  exact h

/-- A segment is appended at the end; one without bytes takes no room. -/
theorem Filled.append (h : st.Filled) {sized : M3u8SegmentEntry × Int} (hsize : 0 ≤ sized.2) :
    (st.append source sized).Filled := by
  have hsegments : (st.append source sized).segments = st.segments ++
      [⟨sized.1.url, sized.2, st.totalBytes, st.totalDurationMs⟩] := segments_append st sized
  have htotal : (st.append source sized).totalBytes = st.totalBytes + sized.2 := rfl
  unfold Filled
  rw [hsegments, htotal, List.filter_append]
  by_cases hpos : 0 < sized.2
  · let seg : InProgressRecordingSegmentInfo :=
      ⟨sized.1.url, sized.2, st.totalBytes, st.totalDurationMs⟩
    have hstart : seg.byteOffset = st.totalBytes := rfl
    rw [List.filter_cons_of_pos (by simpa using hpos), List.filter_nil]
    exact LaidOut.concat h hstart hpos
  · have hzero : sized.2 = 0 := by omega
    rw [hzero, Int.add_zero, List.filter_cons_of_neg (by simp), List.filter_nil, List.append_nil]
    exact h

theorem Filled.foldl_append (h : st.Filled) {sized : List (M3u8SegmentEntry × Int)}
    (hsizes : ∀ s ∈ sized, 0 ≤ s.2) :
    (sized.foldl (InProgressRecordingStreamState.append source) st).Filled := by
  induction sized generalizing st with
  | nil => exact h
  | cons first sized ih =>
      exact ih (h.append (hsizes first List.mem_cons_self)) fun s hs =>
        hsizes s (List.mem_cons_of_mem _ hs)

/-- No size that is merged is negative. -/
theorem merged_size_nonneg (tracker : UnprobeableSegmentTracker) (pending : List M3u8SegmentEntry)
    (r : InProgressRefresh) :
    let probed := probeEntries tracker pending r
    ∀ s ∈ (pending.zip probed.sizes).take probed.mergedCount, 0 ≤ s.2 := by
  intro probed s hs
  cases hpending : pending with
  | nil => simp [hpending] at hs
  | cons leading rest =>
      obtain ⟨-, -, hmerged, -⟩ := probeEntries_merged tracker leading rest r
      obtain ⟨i, hi⟩ := List.getElem?_of_mem hs
      obtain ⟨hlt, -⟩ := List.getElem?_eq_some_iff.mp hi
      have hcount : i < probed.mergedCount := by
        rw [List.length_take] at hlt
        omega
      rw [List.getElem?_take_of_lt hcount, List.getElem?_zip_eq_some] at hi
      subst hpending
      rcases hmerged i s.2 hcount hi.2 with ⟨hpos, -⟩ | ⟨-, hzero, -⟩
      · omega
      · omega

/-- **A refresh** keeps the stream filled. -/
theorem Filled.refresh (h : st.Filled) (r : InProgressRefresh) : (st.refresh source r).Filled := by
  cases hfetched : fetchedText (st, r) with
  | none =>
      obtain ⟨hsegments, hbytes, -⟩ := refresh_of_not_fetched source hfetched
      exact h.congr hsegments hbytes
  | some playlistText =>
      obtain ⟨hsegments, hbytes, -⟩ := refresh_of_fetched source hfetched
      have hmerge : (st.merge source playlistText r).Filled := by
        unfold merge
        refine Filled.foldl_append ?_ (merged_size_nonneg _ _ r)
        exact h.congr rfl rfl
      exact hmerge.congr hsegments hbytes

/-- A refresh appends. -/
theorem segments_prefix_refresh (source : InProgressSource) (st : InProgressRecordingStreamState)
    (r : InProgressRefresh) : st.segments <+: (st.refresh source r).segments := by
  cases hfetched : fetchedText (st, r) with
  | none =>
      rw [(refresh_of_not_fetched source hfetched).1]
  | some playlistText =>
      rw [(refresh_of_fetched source hfetched).1]
      obtain ⟨-, -, new, hnew, -⟩ := segments_merge source st playlistText r
      exact ⟨new, hnew.symm⟩

end InProgressRecordingStreamState

/-! ## every run -/

/-- An open stream is its recording's last one, an entry of the cache holds what that
one holds, and each last stream is filled. -/
structure AllFilled (history : StreamHistory) : Prop where
  cached : Cached history
  filled : ∀ id st, history.last id = some st → st.Filled

theorem AllFilled.next {history : StreamHistory} (h : AllFilled history)
    (event : InProgressEvent) : AllFilled (history.next source event) := by
  refine ⟨h.cached.next event, fun id st hlast => ?_⟩
  cases event with
  | close => exact h.filled id st hlast
  | openStream recordingId =>
      simp only [StreamHistory.next, InProgressClient.next, InProgressClient.openStream,
        InProgressClient.close] at hlast
      split at hlast
      · next hid =>
          obtain rfl := Option.some.inj hlast
          cases hentry : history.client.cache recordingId with
          | none => exact Filled.initial
          | some entry =>
              obtain ⟨held, hheld, hstep⟩ := h.cached.in_step recordingId entry hentry
              exact (h.filled _ _ hheld).congr hstep.segments hstep.totalBytes
      · exact h.filled id st hlast
  | refresh r =>
      cases hopen : history.client.stream with
      | none =>
          simp only [StreamHistory.next, InProgressClient.next, InProgressClient.refresh,
            hopen] at hlast
          exact h.filled id st hlast
      | some opened =>
          obtain ⟨recordingId, before⟩ := opened
          simp only [StreamHistory.next, InProgressClient.next, InProgressClient.refresh,
            hopen] at hlast
          split at hlast
          · obtain rfl := Option.some.inj hlast
            exact (h.filled _ _ (h.cached.is_last _ _ hopen)).refresh r
          · exact h.filled id st hlast

/-- **The byte stream is filled** after any opens, refreshes and closes. -/
theorem filled_after (source : InProgressSource) (events : List InProgressEvent) :
    AllFilled (StreamHistory.after source events) :=
  Runs.foldl_history (I := fun _ history => AllFilled history) ⟨Cached.initial, by simp⟩
    (fun h => h.next _) events

/-! ## finding a position -/

/-- A segment that is found is one with bytes, and has the position. -/
theorem findRecordingSegment_some {position : Int} {segments : List InProgressRecordingSegmentInfo}
    {seg : InProgressRecordingSegmentInfo} (h : findRecordingSegment position segments = some seg) :
    seg ∈ segments ∧ seg.byteOffset ≤ position ∧ position < seg.byteOffset + seg.byteSize :=
  ⟨List.mem_of_find?_eq_some h, contains_iff.mp (List.find?_some h)⟩

/-- **The one segment** that has a position is the one found there. -/
theorem findRecordingSegment_eq {st : InProgressRecordingStreamState} (h : st.Filled)
    {position : Int} {seg : InProgressRecordingSegmentInfo} (hmem : seg ∈ st.segments)
    (hstart : seg.byteOffset ≤ position) (hend : position < seg.byteOffset + seg.byteSize) :
    findRecordingSegment position st.segments = some seg := by
  have hbytes : seg ∈ st.segments.filter fun seg => decide (0 < seg.byteSize) :=
    List.mem_filter.mpr ⟨hmem, by simp; omega⟩
  have hbounds := h.mem hbytes
  have hfilter : ∀ segments : List InProgressRecordingSegmentInfo,
      findRecordingSegment position segments =
        findRecordingSegment position (segments.filter fun seg => decide (0 < seg.byteSize)) := by
    intro segments
    unfold findRecordingSegment
    rw [List.find?_filter]
    congr 1
    funext seg
    by_cases hcontains : contains InProgressRecordingSegmentInfo.byteOffset
        InProgressRecordingSegmentInfo.byteSize position seg = true
    · have := contains_iff.mp hcontains
      have hpos : 0 < seg.byteSize := by omega
      simp [hcontains, hpos]
    · simp [Bool.eq_false_iff.mpr hcontains]
  obtain ⟨found, -, hfind, -, hsame⟩ := (h.find?_contains position).1 (by omega)
  rw [hfilter, findRecordingSegment, hfind, hsame seg hbytes (contains_iff.mpr ⟨hstart, hend⟩)]

end DispatcharrPvr
