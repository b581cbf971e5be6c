import DispatcharrPvr.InProgressRecording.Merge
import Mathlib.Data.List.Chain

/-!
# InProgressRecording.MergeRuns

Refreshes one after the other, against a playlist that only grows: the stream
holds the first entries of the playlist after each of them, and an entry has no
size only when it was retried often and long enough.
-/

namespace DispatcharrPvr

open InProgressRecordingStreamState

/-! ## runs -/

/-- The refreshes, each with the stream it is applied to. -/
def refreshSteps (source : InProgressSource) (st : InProgressRecordingStreamState) :
    List InProgressRefresh → List RefreshStep
  | [] => []
  | r :: rs => (st, r) :: refreshSteps source (st.refresh source r) rs

/-- Those that fetched a playlist. -/
def fetchSteps (source : InProgressSource) (st : InProgressRecordingStreamState)
    (rs : List InProgressRefresh) : List RefreshStep :=
  (refreshSteps source st rs).filter fun step => (fetchedText step).isSome

/-- The playlists they fetched. -/
def fetchedTexts (source : InProgressSource) (st : InProgressRecordingStreamState)
    (rs : List InProgressRefresh) : List ByteString :=
  (refreshSteps source st rs).filterMap fetchedText

/-- Each playlist has the entries of the one before it, the first one those
known at the start. -/
def AppendOnly (source : InProgressSource) (known : List M3u8SegmentEntry)
    (texts : List ByteString) : Prop :=
  (known :: texts.map source.entries).IsChain (· <+: ·)

/-- The entries of the last playlist. -/
def lastEntries (source : InProgressSource) (known : List M3u8SegmentEntry)
    (texts : List ByteString) : List M3u8SegmentEntry :=
  (texts.getLast?.map source.entries).getD known

variable {source : InProgressSource}

theorem refreshSteps_concat (st : InProgressRecordingStreamState) (rs : List InProgressRefresh)
    (r : InProgressRefresh) :
    refreshSteps source st (rs ++ [r]) =
      refreshSteps source st rs ++ [(refreshes source st rs, r)] := by
  induction rs generalizing st with
  | nil => rfl
  | cons first rs ih =>
      rw [List.cons_append, refreshSteps, ih]
      rfl

theorem refreshes_concat (st : InProgressRecordingStreamState) (rs : List InProgressRefresh)
    (r : InProgressRefresh) :
    refreshes source st (rs ++ [r]) = (refreshes source st rs).refresh source r := by
  simp [refreshes]

section Concat

variable {st : InProgressRecordingStreamState} {rs : List InProgressRefresh}
  {r : InProgressRefresh}

theorem fetchSteps_concat_of_none (h : fetchedText (refreshes source st rs, r) = none) :
    fetchSteps source st (rs ++ [r]) = fetchSteps source st rs := by
  simp [fetchSteps, refreshSteps_concat, h]

theorem fetchSteps_concat_of_some {playlistText : ByteString}
    (h : fetchedText (refreshes source st rs, r) = some playlistText) :
    fetchSteps source st (rs ++ [r]) =
      fetchSteps source st rs ++ [(refreshes source st rs, r)] := by
  simp [fetchSteps, refreshSteps_concat, h]

theorem fetchedTexts_concat_of_none (h : fetchedText (refreshes source st rs, r) = none) :
    fetchedTexts source st (rs ++ [r]) = fetchedTexts source st rs := by
  simp [fetchedTexts, refreshSteps_concat, h]

theorem fetchedTexts_concat_of_some {playlistText : ByteString}
    (h : fetchedText (refreshes source st rs, r) = some playlistText) :
    fetchedTexts source st (rs ++ [r]) = fetchedTexts source st rs ++ [playlistText] := by
  simp [fetchedTexts, refreshSteps_concat, h]

end Concat

@[simp] theorem lastEntries_concat (known : List M3u8SegmentEntry) (texts : List ByteString)
    (playlistText : ByteString) :
    lastEntries source known (texts ++ [playlistText]) = source.entries playlistText := by
  simp [lastEntries]

/-- One more playlist extends the last one. -/
theorem AppendOnly.concat {known : List M3u8SegmentEntry} {texts : List ByteString}
    {playlistText : ByteString} (h : AppendOnly source known (texts ++ [playlistText])) :
    AppendOnly source known texts ∧
      lastEntries source known texts <+: source.entries playlistText := by
  unfold AppendOnly at h
  rw [List.map_append, ← List.cons_append, List.isChain_append] at h
  obtain ⟨hbefore, -, hlast⟩ := h
  refine ⟨hbefore, hlast _ ?_ _ rfl⟩
  cases texts using List.reverseRecOn with
  | nil => rfl
  | append_singleton texts text =>
      rw [lastEntries_concat, List.map_append, ← List.cons_append]
      exact List.getLast?_concat ..

/-! ## one refresh -/

theorem probeCount_le (tracker : UnprobeableSegmentTracker) (pending : List M3u8SegmentEntry) :
    probeCount tracker pending ≤ pending.length := by
  cases pending with
  | nil => exact Nat.le_refl 0
  | cons leading rest =>
      simp only [probeCount]
      split
      · simp
      · exact Nat.le_refl _

/-- A failed probe of the entry that comes next, behind those that are counted
already. -/
theorem Tracks.failing {entries : List M3u8SegmentEntry} {history : List RefreshStep}
    {st : InProgressRecordingStreamState} (h : Tracks source entries history st)
    {r : InProgressRefresh} (hfailed : ProbeFailed source (st, r) st.segments.length)
    {count : Nat} {since : Int}
    (hcount : count = 1 ∧ since = r.probedAt ∨
      count = st.unprobeableSegment.consecutiveFailures + 1 ∧
        since = st.unprobeableSegment.firstFailedAt ∧ st.unprobeableSegment ≠ {}) :
    ∃ earlier failing first, history ++ [(st, r)] = earlier ++ failing ∧
      failing.length = count ∧ failing.head? = some first ∧ failing.getLast? = some (st, r) ∧
      failedAt first st.segments.length = since ∧
      ∀ step ∈ failing, ProbeFailed source step st.segments.length := by
  rcases hcount with ⟨rfl, rfl⟩ | ⟨rfl, rfl, hcounting⟩
  · refine ⟨history, [(st, r)], (st, r), rfl, rfl, rfl, rfl, by simp [failedAt], ?_⟩
    intro step hstep
    obtain rfl : step = (st, r) := by simpa using hstep
    exact hfailed
  · rcases h with hnone | ⟨-, earlier, failing, first, rfl, hlength, hfirst, hsince, hfailing⟩
    · exact absurd hnone hcounting
    · refine ⟨earlier, failing ++ [(st, r)], first, by simp, by simp [hlength], ?_, by simp,
        hsince, ?_⟩
      · rw [List.head?_append, hfirst]
        rfl
      · intro step hstep
        rcases List.mem_append.mp hstep with hold | hnew
        · exact hfailing step hold
        · obtain rfl : step = (st, r) := by simpa using hnew
          exact hfailed

theorem Tracks.mono {entries entries' : List M3u8SegmentEntry} {history : List RefreshStep}
    {st : InProgressRecordingStreamState} (h : Tracks source entries history st)
    (hgrown : entries <+: entries') : Tracks source entries' history st := by
  rcases h with hnone | ⟨hlt, hfailing⟩
  · exact .inl hnone
  · exact .inr ⟨Nat.lt_of_lt_of_le hlt hgrown.length_le, hfailing⟩

/-- The refresh probed the `k`-th entry it had left to merge, and the probe failed. -/
theorem probeFailed_pending {st : InProgressRecordingStreamState} {r : InProgressRefresh}
    {playlistText : ByteString} (hfetched : fetchedText (st, r) = some playlistText) {k : Nat}
    (hprobed : k < probeCount st.unprobeableSegment
      (source.pending playlistText st.segments.length)) (hfails : r.probe k ≤ 0) :
    ProbeFailed source (st, r) (st.segments.length + k) := by
  refine ⟨playlistText, hfetched, Nat.le_add_right .., ?_, ?_⟩
  · rw [Nat.add_sub_cancel_left]
    exact hprobed
  · rw [Nat.add_sub_cancel_left]
    exact hfails

/-- A tracker that counts one failure counts the last refresh. -/
theorem Tracks.starts {entries : List M3u8SegmentEntry} {history : List RefreshStep}
    {step : RefreshStep} {st : InProgressRecordingStreamState}
    (hlt : st.segments.length < entries.length)
    (hfailed : ProbeFailed source step st.segments.length)
    (hone : st.unprobeableSegment.consecutiveFailures = 1)
    (hsince : failedAt step st.segments.length = st.unprobeableSegment.firstFailedAt) :
    Tracks source entries (history ++ [step]) st := by
  refine .inr ⟨hlt, history, [step], step, rfl, hone.symm, rfl, hsince, fun failing hfailing => ?_⟩
  obtain rfl : failing = step := by simpa using hfailing
  exact hfailed

/-- A refresh that fetched a playlist: the next entries are merged, each sized
by its probe or retried for long enough, and the tracker counts on. -/
theorem refresh_fetched_spec {st : InProgressRecordingStreamState} {r : InProgressRefresh}
    {playlistText : ByteString} (hfetched : fetchedText (st, r) = some playlistText)
    {history : List RefreshStep} (hmerged : Merged source (source.entries playlistText) st)
    (htracks : Tracks source (source.entries playlistText) history st) :
    Merged source (source.entries playlistText) (st.refresh source r) ∧
    Tracks source (source.entries playlistText) (history ++ [(st, r)]) (st.refresh source r) ∧
    ∃ new, (st.refresh source r).segments = st.segments ++ new ∧
      ∀ i seg, new[i]? = some seg →
        (0 < seg.byteSize ∧ seg.byteSize = r.probe i) ∨
        (seg.byteSize = 0 ∧ Retried source (history ++ [(st, r)]) (st.segments.length + i)) := by
  obtain ⟨hsegments, hbytes, htime, htracker⟩ := refresh_of_fetched source hfetched
  obtain ⟨hmerge, hkept, new, happended, hlength, hsizes⟩ := merge_spec hmerged r
  have hpending := source.pending_eq_drop playlistText st.segments.length
  have hafter : (st.refresh source r).segments.length =
      st.segments.length + (probeEntries st.unprobeableSegment
        (source.pending playlistText st.segments.length) r).mergedCount := by
    rw [hsegments, happended, List.length_append, hlength]
  refine ⟨hmerge.congr hsegments hbytes htime, ?_⟩
  rw [hsegments, happended]
  rw [hkept] at htracker
  cases hcases : source.pending playlistText st.segments.length with
  | nil =>
      rw [hcases] at hlength hpending htracker
      have hend : (source.entries playlistText).length ≤ st.segments.length :=
        List.drop_eq_nil_iff.mp hpending.symm
      obtain rfl : new = [] := List.length_eq_zero_iff.mp hlength
      refine ⟨.inl ?_, [], rfl, by simp⟩
      rw [htracker]
      rcases htracks with hnone | ⟨hlt, -⟩
      · exact hnone
      · omega
  | cons leading rest =>
      rw [hcases] at hlength hpending htracker hsizes hafter
      obtain ⟨-, -, -, -, htrackerCases⟩ :=
        probeEntries_cases st.unprobeableSegment leading rest r
      have hroom : st.segments.length + (leading :: rest).length =
          (source.entries playlistText).length := by
        have hdrop := congrArg List.length hpending
        rw [List.length_drop, List.length_cons] at hdrop
        rw [List.length_cons]
        omega
      have hanswered (hkeeps : (probeEntries st.unprobeableSegment (leading :: rest)
          r).gaveUpOnLeading = false) (i : Nat) (seg : InProgressRecordingSegmentInfo)
          (hseg : new[i]? = some seg) : 0 < seg.byteSize ∧ seg.byteSize = r.probe i := by
        rcases hsizes i seg hseg with hsized | ⟨-, -, hgaveUp⟩
        · exact hsized
        · exact absurd (hkeeps.symm.trans hgaveUp) Bool.false_ne_true
      rcases htrackerCases with ⟨hnone, hkeeps⟩ | ⟨hkeeps, hpos, hprobed, hfails, hone, hsince⟩ |
        ⟨hfails, count, since, hcount, hcase⟩
      · refine ⟨.inl (htracker.trans hnone), new, rfl, fun i seg hseg => ?_⟩
        exact .inl (hanswered hkeeps i seg hseg)
      · have hfailed : ProbeFailed source (st, r) (st.refresh source r).segments.length := by
          rw [hafter]
          exact probeFailed_pending hfetched (hcases ▸ hprobed) hfails
        refine ⟨.starts ?_ hfailed ?_ ?_, new, rfl, ?_⟩
        · have hle := probeCount_le st.unprobeableSegment (leading :: rest)
          omega
        · rw [htracker, hone]
        · rw [htracker, hsince]
          exact if_neg (by simp only; omega)
        · intro i seg hseg
          exact .inl (hanswered hkeeps i seg hseg)
      · have hfailed : ProbeFailed source (st, r) st.segments.length :=
          probeFailed_pending hfetched (hcases ▸ probeCount_pos ..) hfails
        obtain ⟨earlier, failing, first, hhistory, hfailingLength, hfirst, hlast, hsinceFirst,
          hfailing⟩ := htracks.failing hfailed hcount
        rcases hcase with ⟨hgaveUp, hnone, hmany, hlong⟩ | ⟨hkeeps, hzero, hcounted, hsince⟩
        · refine ⟨.inl (htracker.trans hnone), new, rfl, fun i seg hseg => ?_⟩
          rcases hsizes i seg hseg with hsized | ⟨rfl, hempty, -⟩
          · exact .inl hsized
          · refine .inr ⟨hempty, earlier, failing, first, (st, r), hhistory, ?_, hfirst, hlast, ?_,
              hfailing⟩
            · rw [hfailingLength]
              exact hmany
            · have hnow : failedAt (st, r) st.segments.length = r.probedAt := if_pos rfl
              rw [Nat.add_zero, hnow, hsinceFirst]
              exact hlong
        · rw [hzero] at hlength hafter
          obtain rfl : new = [] := List.length_eq_zero_iff.mp hlength
          rw [Nat.add_zero] at hafter
          refine ⟨.inr ⟨?_, earlier, failing, first, hhistory, ?_, hfirst, ?_, ?_⟩, [], rfl,
            by simp⟩
          · rw [hafter, ← hroom, List.length_cons]
            omega
          · rw [htracker, hcounted, hfailingLength]
          · rw [hafter, htracker, hsince, hsinceFirst]
          · rw [hafter]
            exact hfailing

/-! ## every run -/

/-- After any refreshes the stream holds the first entries of the playlist, and
its tracker counts the last ones. -/
theorem merged_refreshes {known : List M3u8SegmentEntry} {st : InProgressRecordingStreamState}
    (hopened : Merged source known st) (htracker : st.unprobeableSegment = {})
    (rs : List InProgressRefresh) (hgrows : AppendOnly source known (fetchedTexts source st rs)) :
    Merged source (lastEntries source known (fetchedTexts source st rs)) (refreshes source st rs) ∧
      Tracks source (lastEntries source known (fetchedTexts source st rs))
        (fetchSteps source st rs) (refreshes source st rs) := by
  induction rs using List.reverseRecOn with
  | nil => exact ⟨hopened, .inl htracker⟩
  | append_singleton rs r ih =>
      rw [refreshes_concat]
      cases hfetched : fetchedText (refreshes source st rs, r) with
      | none =>
          rw [fetchedTexts_concat_of_none hfetched] at hgrows ⊢
          rw [fetchSteps_concat_of_none hfetched]
          obtain ⟨hmerged, htracks⟩ := ih hgrows
          obtain ⟨hsegments, hbytes, htime, hkept⟩ := refresh_of_not_fetched source hfetched
          refine ⟨hmerged.congr hsegments hbytes htime, ?_⟩
          unfold Tracks
          rw [hsegments, hkept]
          exact htracks
      | some playlistText =>
          rw [fetchedTexts_concat_of_some hfetched] at hgrows ⊢
          rw [fetchSteps_concat_of_some hfetched, lastEntries_concat]
          obtain ⟨hbefore, hlast⟩ := hgrows.concat
          obtain ⟨hmerged, htracks⟩ := ih hbefore
          obtain ⟨hafter, hcounts, -⟩ :=
            refresh_fetched_spec hfetched (hmerged.mono hlast) (htracks.mono hlast)
          exact ⟨hafter, hcounts⟩

/-- **The merge of a recording being written** neither loses nor repeats an
entry.  A stream is opened with the first of the `known` entries, laid end to
end: with none when it is opened afresh.  After each refresh, whatever the
probes gave, it holds the first entries of the playlist last fetched, their
offsets and the totals the running sums; it kept what it held; each entry the
refresh added has the size its probe gave, or none after its probe failed in
the last refreshes that fetched a playlist, at least five and over at least
thirty seconds; and no entry of which the probe failed in this refresh is merged,
nor any after it, but one retried so. -/
theorem in_progress_merge (source : InProgressSource) (known : List M3u8SegmentEntry)
    (opened : InProgressRecordingStreamState) (hopened : Merged source known opened)
    (htracker : opened.unprobeableSegment = {}) (rs : List InProgressRefresh)
    (r : InProgressRefresh)
    (hgrows : AppendOnly source known (fetchedTexts source opened (rs ++ [r]))) :
    let before := refreshes source opened rs
    let after := refreshes source opened (rs ++ [r])
    Merged source (lastEntries source known (fetchedTexts source opened (rs ++ [r]))) after ∧
    ∃ new, after.segments = before.segments ++ new ∧
      (∀ i seg, new[i]? = some seg →
        (0 < seg.byteSize ∧ seg.byteSize = r.probe i) ∨
        (seg.byteSize = 0 ∧
          Retried source (fetchSteps source opened (rs ++ [r])) (before.segments.length + i))) ∧
      ∀ k, ProbeFailed source (before, r) k → k < after.segments.length →
        Retried source (fetchSteps source opened (rs ++ [r])) k := by
  intro before after
  have hafter : after = before.refresh source r := refreshes_concat ..
  refine ⟨(merged_refreshes hopened htracker _ hgrows).1, ?_⟩
  cases hfetched : fetchedText (before, r) with
  | none =>
      obtain ⟨hsegments, -⟩ := refresh_of_not_fetched source hfetched
      refine ⟨[], by rw [hafter, hsegments, List.append_nil], by simp, ?_⟩
      rintro k ⟨playlistText, hsome, -⟩
      rw [hfetched] at hsome
      contradiction
  | some playlistText =>
      rw [fetchedTexts_concat_of_some hfetched] at hgrows
      obtain ⟨hbefore, hlast⟩ := hgrows.concat
      obtain ⟨hmerged, htracks⟩ := merged_refreshes hopened htracker rs hbefore
      obtain ⟨-, -, new, happended, hsizes⟩ :=
        refresh_fetched_spec hfetched (hmerged.mono hlast) (htracks.mono hlast)
      rw [← hafter] at happended
      rw [fetchSteps_concat_of_some hfetched]
      refine ⟨new, happended, hsizes, ?_⟩
      rintro k ⟨-, -, hle, -, hfailed⟩ hlt
      change before.segments.length ≤ k at hle
      change r.probe (k - before.segments.length) ≤ 0 at hfailed
      rw [happended, List.length_append] at hlt
      have hget := List.getElem?_eq_getElem (l := new) (i := k - before.segments.length) (by omega)
      rcases hsizes _ _ hget with ⟨hpos, hsize⟩ | ⟨-, hretried⟩
      · rw [hsize] at hpos
        omega
      · rwa [Nat.add_sub_cancel' hle] at hretried

/-! ## a segment given up on -/

/-- A server, with a library that reads every duration as 4 s. -/
def exampleSource : InProgressSource where
  baseUrl := ascii "http://tv:9191"
  recordingId := 7
  arithmetic := { stod := fun _ => some (.finite 4), round := id }

/-- A refresh at a time in seconds, with the playlist of three segments and the
sizes of those not merged yet. -/
def exampleRefresh (seconds : Int) (sizes : List Int) : InProgressRefresh where
  now := seconds * 1000000000
  lookup := .answered true
  playlist := .fetched (ascii "#EXTINF:4,\na.ts\n#EXTINF:4,\nb.ts\n#EXTINF:4,\nc.ts\n")
  probe := fun i => sizes.getD i (-1)
  probedAt := seconds * 1000000000
  armedAt := seconds * 1000000000

/-- The first segment fails five times over 32 s: it is merged empty, the second
one behind it. -/
theorem in_progress_merge_given_up :
    let rs := [exampleRefresh 0 [-1, 100], exampleRefresh 8 [-1], exampleRefresh 16 [-1],
      exampleRefresh 24 [-1]]
    let r := exampleRefresh 32 [-1]
    let after := refreshes exampleSource {} (rs ++ [r, exampleRefresh 33 [100]])
    after.segments.map (·.byteSize) = [0, 100] ∧
      Merged exampleSource (lastEntries exampleSource []
        (fetchedTexts exampleSource {} (rs ++ [r] ++ [exampleRefresh 33 [100]]))) after := by
  intro rs r after
  have hgrows : AppendOnly exampleSource []
      (fetchedTexts exampleSource {} (rs ++ [r] ++ [exampleRefresh 33 [100]])) := by
    unfold AppendOnly
    decide +kernel
  exact ⟨by decide +kernel, (in_progress_merge exampleSource [] {} (Merged.initial []) rfl
    (rs ++ [r]) (exampleRefresh 33 [100]) hgrows).1⟩

end DispatcharrPvr
