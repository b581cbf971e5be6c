import DispatcharrPvr.InProgressRecording.MergeRuns

/-!
# InProgressRecording.Finished

When a recording that is being written counts as finished: the lookup says that
it ended, nothing of the playlist is left to merge, and the playlist has its end
tag or none has come for the length of the grace.
-/

namespace DispatcharrPvr

open InProgressRecordingStreamState

variable {source : InProgressSource}

/-! ## what a refresh sees -/

/-- The refresh merged every entry of its playlist past those held. -/
def MergedAll (source : InProgressSource) (step : RefreshStep) : Prop :=
  ∃ playlistText, fetchedText step = some playlistText ∧
    (step.1.refresh source step.2).segments.map (·.url) =
      step.1.segments.map (·.url) ++
        (source.pending playlistText step.1.segments.length).map (·.url)

/-- The lookup says that the recording ended, and nothing is left to merge. -/
def SeenEnded (source : InProgressSource) (step : RefreshStep) : Prop :=
  step.2.lookup = .answered false ∧ MergedAll source step

/-- The lookup failed on a stream that is marked finished. -/
def KeptFinished (step : RefreshStep) : Prop :=
  step.1.finished = true ∧ ∃ httpStatus authenticationNotCompleted,
    step.2.lookup = .failed httpStatus authenticationNotCompleted

/-- The last of the refreshes span the grace, and `P` holds of each of them. -/
def UnbrokenRun (P : RefreshStep → Prop) (steps : List RefreshStep) : Prop :=
  ∃ earlier run first last, steps = earlier ++ run ∧ run.head? = some first ∧
    run.getLast? = some last ∧ endListGrace ≤ last.2.now - first.2.now ∧ ∀ step ∈ run, P step

/-- A run that is broken just before its end spans no time. -/
theorem not_unbrokenRun {P : RefreshStep → Prop} {steps : List RefreshStep} {bad last : RefreshStep}
    (hbad : ¬ P bad) : ¬ UnbrokenRun P (steps ++ [bad] ++ [last]) := by
  rintro ⟨earlier, run, first, final, hsteps, hfirst, hfinal, hgrace, hrun⟩
  cases run using List.reverseRecOn with
  | nil => simp at hfirst
  | append_singleton run step =>
      rw [← List.append_assoc] at hsteps
      obtain ⟨hbefore, hlast⟩ := List.append_inj' hsteps rfl
      obtain rfl : last = step := by simpa using hlast
      cases run using List.reverseRecOn with
      | nil =>
          obtain rfl : last = first := by simpa using hfirst
          obtain rfl : last = final := by simpa using hfinal
          rw [Int.sub_self] at hgrace
          exact absurd hgrace (by decide)
      | append_singleton run step' =>
          rw [← List.append_assoc] at hbefore
          obtain rfl : bad = step' := by simpa using (List.append_inj' hbefore rfl).2
          exact hbad (hrun bad (by simp))

/-! ## one refresh -/

theorem urls_foldl_append (st : InProgressRecordingStreamState)
    (sized : List (M3u8SegmentEntry × Int)) :
    (sized.foldl (append source) st).segments.map (·.url) =
      st.segments.map (·.url) ++ (sized.map (·.1)).map (·.url) := by
  induction sized generalizing st with
  | nil => simp
  | cons first sized ih =>
      rw [List.foldl_cons, ih, segments_append]
      simp

/-- With no failed probe left behind, every new entry is merged. -/
theorem mergedCount_of_failedProbeCount {tracker : UnprobeableSegmentTracker}
    {pending : List M3u8SegmentEntry} {r : InProgressRefresh}
    (h : (probeEntries tracker pending r).failedProbeCount = 0) :
    (probeEntries tracker pending r).sizes.length = pending.length ∧
      (probeEntries tracker pending r).mergedCount = pending.length := by
  obtain ⟨hlength, hle⟩ := mergedCount_le tracker pending r
  refine ⟨hlength, Nat.le_antisymm hle (Nat.le_of_not_lt fun hlt => ?_)⟩
  cases pending with
  | nil => exact absurd hlt (Nat.not_lt_zero _)
  | cons leading rest =>
      obtain ⟨-, -, -, hstop, -⟩ := probeEntries_cases tracker leading rest r
      rw [← hlength] at hlt
      have hfails := hstop _ (List.getElem?_eq_getElem hlt)
      simp only [ProbedEntries.failedProbeCount, List.length_eq_zero_iff,
        List.filter_eq_nil_iff, decide_eq_true_eq] at h
      refine h _ ?_ hfails
      rw [List.drop_eq_getElem_cons hlt]
      exact List.mem_cons_self

/-- A candidate: the lookup says that the recording ended and nothing is left
to merge, or it failed on a stream marked finished. -/
theorem candidate_cases {st : InProgressRecordingStreamState} {r : InProgressRefresh}
    {playlistText : ByteString} (hfetched : fetchedText (st, r) = some playlistText)
    (h : resolveInProgressFinished r.lookup st.finished
      ((probeEntries st.unprobeableSegment
        (source.pending playlistText st.segments.length) r).failedProbeCount == 0) = true) :
    SeenEnded source (st, r) ∨ KeptFinished (st, r) := by
  cases hlookup : r.lookup with
  | failed httpStatus authenticationNotCompleted =>
      rw [hlookup] at h
      exact .inr ⟨h, httpStatus, authenticationNotCompleted, hlookup⟩
  | answered isInProgress =>
      rw [hlookup] at h
      cases isInProgress with
      | true => simp [resolveInProgressFinished] at h
      | false =>
          have hnone : (probeEntries st.unprobeableSegment
              (source.pending playlistText st.segments.length) r).failedProbeCount = 0 := by
            simpa [resolveInProgressFinished] using h
          obtain ⟨hsizes, hmerged⟩ := mergedCount_of_failedProbeCount hnone
          refine .inl ⟨hlookup, playlistText, hfetched, ?_⟩
          simp only [(refresh_of_fetched source hfetched).1, merge, urls_foldl_append]
          rw [hmerged, List.take_of_length_le (by rw [List.length_zip]; omega)]
          rw [List.map_fst_zip (by omega)]

/-- A fetched playlist: the flag and the wait it leaves. -/
theorem refresh_finished_of_fetched (source : InProgressSource)
    {st : InProgressRecordingStreamState} {r : InProgressRefresh}
    {playlistText : ByteString} (hfetched : fetchedText (st, r) = some playlistText) :
    ((st.refresh source r).finished, (st.refresh source r).endListWaitingSince) =
      gateFinishedOnEndList
        (resolveInProgressFinished r.lookup st.finished
          ((probeEntries st.unprobeableSegment
            (source.pending playlistText st.segments.length) r).failedProbeCount == 0))
        (m3u8HasEndList playlistText) st.endListWaitingSince r.now endListGrace := by
  simp only [fetchedText] at hfetched
  split at hfetched
  · contradiction
  · next hfetches =>
      have hparts : st.contentGone = false ∧
          shouldSkipPlaylistAfterUnansweredLookup r.coldStart (!st.segments.isEmpty) r.lookup =
            false := by
        simpa using hfetches
      cases hplaylist : r.playlist with
      | failed wasNotFound => simp [hplaylist] at hfetched
      | fetched text =>
          obtain rfl : text = playlistText := by simpa [hplaylist] using hfetched
          simp [refresh, hparts.1, hparts.2, hplaylist]

theorem refresh_waiting_of_not_fetched {st : InProgressRecordingStreamState}
    {r : InProgressRefresh} (h : fetchedText (st, r) = none) :
    (st.refresh source r).endListWaitingSince = st.endListWaitingSince := by
  unfold refresh
  split
  · rfl
  · next hgone =>
      split
      · rfl
      · next hskip =>
          cases hplaylist : r.playlist with
          | fetched playlistText =>
              simp only [fetchedText, hplaylist] at h
              rw [if_neg (by simp [hgone, hskip])] at h
              contradiction
          | failed wasNotFound =>
              simp only
              split <;> rfl

/-- The gate opens on a candidate with the tag, or with a wait as long as the
grace. -/
theorem gateFinishedOnEndList_cases (candidateFinished playlistHasEndList : Bool)
    (waitingSince : Option Int) (now grace : Int) :
    let gated := gateFinishedOnEndList candidateFinished playlistHasEndList waitingSince now grace
    (gated.1 = true → candidateFinished = true ∧
      (playlistHasEndList = true ∨ (gated.2 = some (waitingSince.getD now) ∧
        grace ≤ now - waitingSince.getD now))) ∧
    ∀ since, gated.2 = some since → candidateFinished = true ∧ since = waitingSince.getD now := by
  cases candidateFinished <;> cases playlistHasEndList <;> simp [gateFinishedOnEndList]

/-! ## every run -/

/-- A wait goes back to the first of the last refreshes that were candidates. -/
theorem waiting_refreshes {opened : InProgressRecordingStreamState}
    (hopened : opened.endListWaitingSince = none) (rs : List InProgressRefresh) {since : Int}
    (hwaiting : (refreshes source opened rs).endListWaitingSince = some since) :
    ∃ earlier run first, fetchSteps source opened rs = earlier ++ run ∧
      run.head? = some first ∧ first.2.now = since ∧
      ∀ step ∈ run, SeenEnded source step ∨ KeptFinished step := by
  induction rs using List.reverseRecOn generalizing since with
  | nil =>
      rw [show refreshes source opened [] = opened from rfl, hopened] at hwaiting
      contradiction
  | append_singleton rs r ih =>
      rw [refreshes_concat] at hwaiting
      cases hfetched : fetchedText (refreshes source opened rs, r) with
      | none =>
          rw [refresh_waiting_of_not_fetched hfetched] at hwaiting
          rw [fetchSteps_concat_of_none hfetched]
          exact ih hwaiting
      | some playlistText =>
          have hgate := refresh_finished_of_fetched source hfetched
          rw [Prod.mk.injEq] at hgate
          rw [hgate.2] at hwaiting
          obtain ⟨hcandidate, hsince⟩ := (gateFinishedOnEndList_cases ..).2 since hwaiting
          have hstep := candidate_cases hfetched hcandidate
          rw [fetchSteps_concat_of_some hfetched]
          cases hbefore : (refreshes source opened rs).endListWaitingSince with
          | none =>
              rw [hbefore] at hsince
              refine ⟨fetchSteps source opened rs, [(refreshes source opened rs, r)],
                (refreshes source opened rs, r), rfl, rfl, hsince.symm, ?_⟩
              intro step hmem
              obtain rfl : step = (refreshes source opened rs, r) := by simpa using hmem
              exact hstep
          | some earliest =>
              rw [hbefore] at hsince
              obtain rfl : since = earliest := hsince
              obtain ⟨earlier, run, first, hsteps, hfirst, hnow, hrun⟩ := ih hbefore
              refine ⟨earlier, run ++ [(refreshes source opened rs, r)], first, by simp [hsteps],
                ?_, hnow, ?_⟩
              · rw [List.head?_append, hfirst]
                rfl
              · intro step hmem
                rcases List.mem_append.mp hmem with hold | hnew
                · exact hrun step hold
                · obtain rfl : step = (refreshes source opened rs, r) := by simpa using hnew
                  exact hstep

/-- **The finished flag.**  After any refreshes of a stream opened with no wait,
one that fetched a playlist and set the flag had a lookup that said the
recording ended, merged every entry past those held, and its playlist has the
end tag, or it ends an unbroken run among the refreshes that fetched a playlist,
at least as long as the grace, each such a refresh itself or one whose lookup
failed on a stream marked finished.  A refresh whose lookup says that the
recording is in progress clears the flag when it fetched a playlist or was told
that there is none. -/
theorem in_progress_finished (source : InProgressSource) (opened : InProgressRecordingStreamState)
    (hopened : opened.endListWaitingSince = none) (rs : List InProgressRefresh)
    (r : InProgressRefresh) :
    let before := refreshes source opened rs
    let after := refreshes source opened (rs ++ [r])
    (∀ playlistText, fetchedText (before, r) = some playlistText →
      before.finished = false → after.finished = true →
      SeenEnded source (before, r) ∧
      (m3u8HasEndList playlistText = true ∨
        UnbrokenRun (fun step => SeenEnded source step ∨ KeptFinished step)
          (fetchSteps source opened (rs ++ [r])))) ∧
    (r.lookup = .answered true →
      (fetchedText (before, r)).isSome = true ∨
        (before.contentGone = false ∧ r.playlist = .failed true) →
      after.finished = false) := by
  intro before after
  have hafter : after = before.refresh source r := refreshes_concat ..
  constructor
  · intro playlistText hfetched hclear hset
    have hgate := refresh_finished_of_fetched source hfetched
    rw [← hafter, Prod.mk.injEq] at hgate
    rw [hgate.1] at hset
    obtain ⟨hcandidate, hopens⟩ := (gateFinishedOnEndList_cases ..).1 hset
    have hstep : SeenEnded source (before, r) := by
      rcases candidate_cases hfetched hcandidate with hended | ⟨hkept, -⟩
      · exact hended
      · exact absurd (hclear.symm.trans hkept) Bool.false_ne_true
    refine ⟨hstep, hopens.imp_right ?_⟩
    rintro ⟨hsince, hgrace⟩
    rw [← hgate.2] at hsince
    obtain ⟨earlier, run, first, hsteps, hfirst, hnow, hrun⟩ :=
      waiting_refreshes hopened (rs ++ [r]) hsince
    -- the run is not empty, so this refresh is its last one
    have hlast : run.getLast? = some (before, r) := by
      rw [fetchSteps_concat_of_some hfetched] at hsteps
      cases run using List.reverseRecOn with
      | nil => simp at hfirst
      | append_singleton run step =>
          rw [← List.append_assoc] at hsteps
          have hsame := (List.append_inj' hsteps rfl).2
          rw [List.getLast?_concat]
          simpa using hsame.symm
    exact ⟨earlier, run, first, (before, r), hsteps, hfirst, hlast, by rw [hnow]; exact hgrace, hrun⟩
  · rintro hlookup (hfetched | ⟨hhere, hplaylist⟩)
    · obtain ⟨playlistText, hfetched⟩ := Option.isSome_iff_exists.mp hfetched
      have hgate := refresh_finished_of_fetched source hfetched
      rw [← hafter, Prod.mk.injEq, hlookup] at hgate
      rw [hgate.1]
      rfl
    · rw [hafter]
      simp [refresh, hhere, hplaylist, hlookup, shouldSkipPlaylistAfterUnansweredLookup,
        isInProgressContentGone, resolveInProgressFinished]

/-! ## a tag that goes away, a playlist that does not come -/

/-- A playlist of one segment. -/
def onePlaylist (name : String) (tagged : Bool) : PlaylistFetch :=
  .fetched (ascii "#EXTINF:4,\n" ++ ascii name ++ ascii ".ts\n" ++
    if tagged then ascii "#EXT-X-ENDLIST\n" else [])

/-- A refresh at a time in seconds; each probe answers. -/
def sizedRefresh (seconds : Int) (lookup : RecordingLookup) (playlist : PlaylistFetch) :
    InProgressRefresh where
  now := seconds * 1000000000
  lookup
  playlist
  probe := fun _ => 100
  probedAt := seconds * 1000000000
  armedAt := seconds * 1000000000

/-- A recording that ended without the tag is finished after the grace. -/
theorem in_progress_finished_untagged :
    let untagged := onePlaylist "a" false
    let rs := [sizedRefresh 0 (.answered false) untagged]
    let r := sizedRefresh 15 (.answered false) untagged
    SeenEnded exampleSource (refreshes exampleSource {} rs, r) := by
  intro untagged rs r
  exact ((in_progress_finished exampleSource {} rfl rs r).1
    (ascii "#EXTINF:4,\n" ++ ascii "a" ++ ascii ".ts\n" ++ []) (by decide +kernel)
    (by decide +kernel) (by decide +kernel)).1

/-- The flag is set 15 s after a refresh whose lookup failed, when the tag went
away; 15 s after the recording was seen to end, with a lookup in between that
said it goes on and no playlist; it stays set through such a refresh; and it is
set on a playlist of which not one entry was merged, another with as many
entries having been read before. -/
theorem in_progress_finished_early :
    let tagged := onePlaylist "a" true
    let untagged := onePlaylist "a" false
    let gone := [sizedRefresh 0 (.answered false) tagged]
    let unanswered := sizedRefresh 10 (.failed 500 false) untagged
    let ended := [sizedRefresh 0 (.answered false) untagged]
    let goesOn := sizedRefresh 10 (.answered true) (.failed false)
    let swapped := refreshes exampleSource {} [sizedRefresh 0 (.answered true) untagged,
      sizedRefresh 5 (.answered false) (onePlaylist "b" true)]
    ¬ UnbrokenRun (SeenEnded exampleSource) (refreshSteps exampleSource {}
        (gone ++ [unanswered] ++ [sizedRefresh 25 (.answered false) untagged])) ∧
      (refreshes exampleSource {} (gone ++ [unanswered])).finished = false ∧
      (refreshes exampleSource {}
        (gone ++ [unanswered] ++ [sizedRefresh 25 (.answered false) untagged])).finished = true ∧
    ¬ UnbrokenRun (SeenEnded exampleSource) (refreshSteps exampleSource {}
        (ended ++ [goesOn] ++ [sizedRefresh 15 (.answered false) untagged])) ∧
      (refreshes exampleSource {} (ended ++ [goesOn])).finished = false ∧
      (refreshes exampleSource {}
        (ended ++ [goesOn] ++ [sizedRefresh 15 (.answered false) untagged])).finished = true ∧
    (refreshes exampleSource {} (gone ++ [goesOn])).finished = true ∧
    swapped.finished = true ∧
      swapped.segments.map (·.url) =
        [ascii "http://tv:9191/api/channels/recordings/7/hls/a.ts"] := by
  intro tagged untagged gone unanswered ended goesOn swapped
  refine ⟨?_, by decide +kernel, by decide +kernel, ?_, by decide +kernel, by decide +kernel,
    by decide +kernel, by decide +kernel, by decide +kernel⟩
  · rw [refreshSteps_concat, refreshSteps_concat]
    exact not_unbrokenRun fun hseen => absurd hseen.1 (by decide)
  · rw [refreshSteps_concat, refreshSteps_concat]
    exact not_unbrokenRun fun hseen => absurd hseen.1 (by decide)

end DispatcharrPvr
