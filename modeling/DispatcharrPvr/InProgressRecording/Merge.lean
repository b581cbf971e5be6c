import DispatcharrPvr.InProgressRecording
import DispatcharrPvr.Lib.Runs
import Mathlib.Algebra.Ring.Int.Defs
import Mathlib.Data.List.Induction

/-!
# InProgressRecording.Merge

The segments of a recording that is being written are the first entries of its
playlist, one after the other, whatever the probes of their sizes give.  The
tracker of a failing segment counts failures of the entry that comes next, and
nothing else.
-/

namespace DispatcharrPvr

/-! ## running sums -/

/-- What has been summed up ahead of each number. -/
def runningSums (before : Int) : List Int → List Int
  | [] => []
  | x :: xs => before :: runningSums (before + x) xs

theorem runningSums_concat (before : Int) (xs : List Int) (x : Int) :
    runningSums before (xs ++ [x]) = runningSums before xs ++ [before + xs.sum] := by
  induction xs generalizing before with
  | nil => simp [runningSums]
  | cons y ys ih =>
      simp only [List.cons_append, runningSums, ih, List.sum_cons]
      grind

/-! ## the merged entries -/

/-- The stream holds the first entries of the playlist, laid end to end. -/
structure Merged (source : InProgressSource) (entries : List M3u8SegmentEntry)
    (st : InProgressRecordingStreamState) : Prop where
  length_le : st.segments.length ≤ entries.length
  urls : st.segments.map (·.url) = (entries.take st.segments.length).map (·.url)
  byteOffsets : st.segments.map (·.byteOffset) = runningSums 0 (st.segments.map (·.byteSize))
  timeOffsets : st.segments.map (·.timeOffsetMs) =
    runningSums 0 ((entries.take st.segments.length).map source.durationMs)
  totalBytes : st.totalBytes = (st.segments.map (·.byteSize)).sum
  totalDurationMs : st.totalDurationMs =
    ((entries.take st.segments.length).map source.durationMs).sum

variable {source : InProgressSource}

theorem Merged.initial (entries : List M3u8SegmentEntry) : Merged source entries {} := by
  constructor <;> simp [runningSums]

/-- The playlist grew. -/
theorem Merged.mono {entries entries' : List M3u8SegmentEntry}
    {st : InProgressRecordingStreamState} (h : Merged source entries st)
    (hgrown : entries <+: entries') : Merged source entries' st := by
  obtain ⟨more, rfl⟩ := hgrown
  have htake : (entries ++ more).take st.segments.length = entries.take st.segments.length :=
    List.take_append_of_le_length h.length_le
  refine ⟨?_, ?_, h.byteOffsets, ?_, h.totalBytes, ?_⟩
  · rw [List.length_append]
    have hle := h.length_le
    omega
  · rw [htake]
    exact h.urls
  · rw [htake]
    exact h.timeOffsets
  · rw [htake]
    exact h.totalDurationMs

/-- Fields that are no part of the address space. -/
theorem Merged.congr {entries : List M3u8SegmentEntry} {st st' : InProgressRecordingStreamState}
    (h : Merged source entries st) (hsegments : st'.segments = st.segments)
    (hbytes : st'.totalBytes = st.totalBytes) (htime : st'.totalDurationMs = st.totalDurationMs) :
    Merged source entries st' := by
  obtain ⟨hlength, hurls, hoffsets, htimes, htotal, hduration⟩ := h
  refine ⟨?_, ?_, ?_, ?_, ?_, ?_⟩
  · rwa [hsegments]
  · rwa [hsegments]
  · rwa [hsegments]
  · rwa [hsegments]
  · rwa [hsegments, hbytes]
  · rwa [hsegments, htime]

namespace InProgressRecordingStreamState

theorem length_append (st : InProgressRecordingStreamState) (sized : M3u8SegmentEntry × Int) :
    (st.append source sized).segments.length = st.segments.length + 1 := by
  simp [append]

theorem segments_append (st : InProgressRecordingStreamState) (sized : M3u8SegmentEntry × Int) :
    (st.append source sized).segments = st.segments ++
      [⟨sized.1.url, sized.2, st.totalBytes, st.totalDurationMs⟩] := rfl

end InProgressRecordingStreamState

open InProgressRecordingStreamState

theorem Merged.append {entries : List M3u8SegmentEntry} {st : InProgressRecordingStreamState}
    (h : Merged source entries st) {entry : M3u8SegmentEntry}
    (hentry : entries[st.segments.length]? = some entry) (size : Int) :
    Merged source entries (st.append source (entry, size)) := by
  obtain ⟨hlt, hget⟩ := List.getElem?_eq_some_iff.mp hentry
  have htake : entries.take (st.segments.length + 1) =
      entries.take st.segments.length ++ [entry] := by
    rw [List.take_succ_eq_append_getElem hlt, hget]
  refine ⟨?_, ?_, ?_, ?_, ?_, ?_⟩
  · rw [length_append]
    omega
  · rw [length_append, htake, segments_append]
    simp [h.urls]
  · rw [segments_append]
    simp only [List.map_append, List.map_cons, List.map_nil, runningSums_concat]
    rw [h.byteOffsets, h.totalBytes]
    simp
  · rw [length_append, htake, segments_append]
    simp only [List.map_append, List.map_cons, List.map_nil, runningSums_concat]
    rw [h.timeOffsets, h.totalDurationMs]
    simp
  · rw [segments_append]
    simp [InProgressRecordingStreamState.append, appendSegmentOffsets, h.totalBytes]
  · rw [length_append, htake]
    simp [InProgressRecordingStreamState.append, appendSegmentOffsets, h.totalDurationMs]

/-- The next entries appended, with whatever sizes. -/
theorem Merged.foldl_append {entries : List M3u8SegmentEntry}
    {st : InProgressRecordingStreamState} (h : Merged source entries st)
    {sized : List (M3u8SegmentEntry × Int)}
    (hsized : sized.map (·.1) <+: entries.drop st.segments.length) :
    Merged source entries (sized.foldl (InProgressRecordingStreamState.append source) st) ∧
      ∃ new, (sized.foldl (InProgressRecordingStreamState.append source) st).segments = st.segments ++ new ∧
        new.map (·.byteSize) = sized.map (·.2) := by
  induction sized generalizing st with
  | nil => exact ⟨h, [], by simp, rfl⟩
  | cons first sized ih =>
      obtain ⟨rest, hrest⟩ := hsized
      have hentry : entries[st.segments.length]? = some first.1 := by
        rw [← List.head?_drop, ← hrest]
        rfl
      have hnext : sized.map (·.1) <+: entries.drop (st.append source first).segments.length := by
        refine ⟨rest, ?_⟩
        rw [length_append, ← List.drop_drop, ← hrest]
        simp
      obtain ⟨hmerged, new, hsegments, hsizes⟩ := ih (h.append hentry first.2) hnext
      refine ⟨hmerged, ⟨first.1.url, first.2, st.totalBytes, st.totalDurationMs⟩ :: new, ?_, ?_⟩
      · rw [List.foldl_cons, hsegments, segments_append]
        simp
      · simp [hsizes]

/-! ## the probes -/

theorem countLeadingProbedSegments_cons (size : Int) (sizes : List Int) :
    countLeadingProbedSegments (size :: sizes) =
      if size > 0 then countLeadingProbedSegments sizes + 1 else 0 := by
  unfold countLeadingProbedSegments
  by_cases h : size > 0 <;> simp [h]

/-- The leading sizes are positive, and the one after them is not. -/
theorem countLeadingProbedSegments_spec (sizes : List Int) :
    countLeadingProbedSegments sizes ≤ sizes.length ∧
      (∀ i size, i < countLeadingProbedSegments sizes → sizes[i]? = some size → 0 < size) ∧
      ∀ size, sizes[countLeadingProbedSegments sizes]? = some size → size ≤ 0 := by
  induction sizes with
  | nil => simp [countLeadingProbedSegments]
  | cons first sizes ih =>
      obtain ⟨hle, hpos, hstop⟩ := ih
      rw [countLeadingProbedSegments_cons]
      by_cases hfirst : first > 0
      · simp only [if_pos hfirst, List.length_cons, List.getElem?_cons_succ]
        refine ⟨by omega, fun i size hi hsize => ?_, hstop⟩
        cases i with
        | zero =>
            obtain rfl : first = size := by simpa using hsize
            exact hfirst
        | succ i => exact hpos i size (by omega) (by simpa using hsize)
      · simp only [if_neg hfirst, List.getElem?_cons_zero, Option.some.injEq]
        refine ⟨by omega, fun i size hi => absurd hi (by omega), ?_⟩
        rintro size rfl
        omega

/-- The mergeable sizes are positive but for one given up on. -/
theorem countMergeableSegments_spec (sizes : List Int) (leadingGivenUp : Bool) :
    countMergeableSegments sizes leadingGivenUp ≤ sizes.length ∧
      (∀ i size, i < countMergeableSegments sizes leadingGivenUp → sizes[i]? = some size →
        0 < size ∨ (leadingGivenUp = true ∧ i = 0)) ∧
      ∀ size, sizes[countMergeableSegments sizes leadingGivenUp]? = some size → size ≤ 0 := by
  unfold countMergeableSegments
  split
  · obtain ⟨hle, hpos, hstop⟩ := countLeadingProbedSegments_spec sizes
    exact ⟨hle, fun i size hi hsize => .inl (hpos i size hi hsize), hstop⟩
  · next hgivenUp =>
      have hparts : leadingGivenUp = true ∧ sizes ≠ [] := by simpa using hgivenUp
      cases sizes with
      | nil => exact absurd rfl hparts.2
      | cons first sizes =>
          obtain ⟨hle, hpos, hstop⟩ := countLeadingProbedSegments_spec sizes
          rw [List.drop_one, List.tail_cons]
          refine ⟨by rw [List.length_cons]; omega, fun i size hi hsize => ?_, fun size hsize => ?_⟩
          · cases i with
            | zero => exact .inr ⟨hparts.1, rfl⟩
            | succ i => exact .inl (hpos i size (by omega) (by simpa using hsize))
          · rw [Nat.add_comm, List.getElem?_cons_succ] at hsize
            exact hstop size hsize

theorem InProgressSource.pending_eq_drop (source : InProgressSource) (playlistText : ByteString)
    (alreadyKnown : Nat) :
    source.pending playlistText alreadyKnown = (source.entries playlistText).drop alreadyKnown := by
  unfold InProgressSource.entries InProgressSource.pending
  rw [parseNewM3u8SegmentEntries_eq_drop, List.map_drop]

/-- What the tracker makes of the leading entry's probe. -/
theorem updateUnprobeableSegmentTracker_cases (tracker : UnprobeableSegmentTracker)
    (url : ByteString) (failed : Bool) (now : Int) :
    ((url = [] ∨ failed = false) ∧
      updateUnprobeableSegmentTracker tracker url failed now = ({}, false)) ∨
    (url ≠ [] ∧ failed = true ∧ ∃ count first,
      (tracker.url ≠ url ∧ count = 1 ∧ first = now ∨
        tracker.url = url ∧ count = tracker.consecutiveFailures + 1 ∧
          first = tracker.firstFailedAt) ∧
      ((unprobeableSegmentMinFailures ≤ count ∧ unprobeableSegmentMinWait ≤ now - first ∧
          updateUnprobeableSegmentTracker tracker url failed now = ({}, true)) ∨
        (¬ (unprobeableSegmentMinFailures ≤ count ∧ unprobeableSegmentMinWait ≤ now - first) ∧
          updateUnprobeableSegmentTracker tracker url failed now = (⟨url, count, first⟩, false)))) := by
  by_cases hreset : (url.isEmpty || !failed) = true
  · exact .inl ⟨by simpa using hreset, by rw [updateUnprobeableSegmentTracker, if_pos hreset]⟩
  · have hcounts : url ≠ [] ∧ failed = true := by simpa using hreset
    refine .inr ⟨hcounts.1, hcounts.2, ?_⟩
    by_cases hurl : tracker.url ≠ url
    · refine ⟨1, now, .inl ⟨hurl, rfl, rfl⟩, ?_⟩
      simp only [updateUnprobeableSegmentTracker, if_neg hreset, if_pos hurl]
      split
      · next hgiveUp => exact .inl ⟨hgiveUp.1, hgiveUp.2, rfl⟩
      · next hwait => exact .inr ⟨hwait, rfl⟩
    · have hsame : tracker.url = url := Decidable.not_not.mp hurl
      refine ⟨tracker.consecutiveFailures + 1, tracker.firstFailedAt, .inr ⟨hsame, rfl, rfl⟩, ?_⟩
      simp only [updateUnprobeableSegmentTracker, if_neg hreset, if_neg hurl]
      split
      · next hgiveUp => exact .inl ⟨hgiveUp.1, hgiveUp.2, rfl⟩
      · next hwait => exact .inr ⟨hwait, by rw [← hsame]⟩

theorem getElem?_probedSizes {tracker : UnprobeableSegmentTracker}
    {pending : List M3u8SegmentEntry} {r : InProgressRefresh} {i : Nat} {size : Int}
    (h : (probedSizes tracker pending r)[i]? = some size) :
    i < pending.length ∧ size = if i < probeCount tracker pending then r.probe i else -1 := by
  simp only [probedSizes, List.getElem?_map, Option.map_eq_some_iff] at h
  obtain ⟨j, hj, rfl⟩ := h
  obtain ⟨hlt, hj⟩ := List.getElem?_eq_some_iff.mp hj
  rw [List.getElem_range] at hj
  subst hj
  exact ⟨by simpa using hlt, rfl⟩

@[simp] theorem length_probedSizes (tracker : UnprobeableSegmentTracker)
    (pending : List M3u8SegmentEntry) (r : InProgressRefresh) :
    (probedSizes tracker pending r).length = pending.length := by
  simp [probedSizes]

/-- A positive size is that of an entry that was probed. -/
theorem probed_of_pos {tracker : UnprobeableSegmentTracker} {pending : List M3u8SegmentEntry}
    {r : InProgressRefresh} {i : Nat} {size : Int} (hpos : 0 < size)
    (h : (probedSizes tracker pending r)[i]? = some size) :
    i < probeCount tracker pending ∧ size = r.probe i := by
  obtain ⟨-, hsize⟩ := getElem?_probedSizes h
  by_cases hprobed : i < probeCount tracker pending
  · rw [if_pos hprobed] at hsize
    exact ⟨hprobed, hsize⟩
  · rw [if_neg hprobed] at hsize
    omega

section Probed

variable (tracker : UnprobeableSegmentTracker) (leading : M3u8SegmentEntry)
  (rest : List M3u8SegmentEntry) (r : InProgressRefresh)

/-- The leading entry is always probed. -/
theorem probeCount_pos : 0 < probeCount tracker (leading :: rest) := by
  simp only [probeCount]
  split
  · exact Nat.one_pos
  · simp

theorem probedSizes_zero :
    (probedSizes tracker (leading :: rest) r).getD 0 (-1) = r.probe 0 := by
  have hpos := probeCount_pos tracker leading rest
  simp [probedSizes, hpos, List.range_succ_eq_map]

/-- The first entry to fail behind one that answered becomes the one retried. -/
theorem arm_cases (sizes : List Int) (mergedCount probedCount : Nat)
    (pending : List M3u8SegmentEntry) (hlength : sizes.length = pending.length) :
    let armed : UnprobeableSegmentTracker :=
      match pending[indexToArmTrackerAfterMerge sizes mergedCount false probedCount]? with
      | none => {}
      | some entry => (updateUnprobeableSegmentTracker {} entry.url true r.armedAt).1
    armed = {} ∨
      (0 < mergedCount ∧ mergedCount < probedCount ∧ mergedCount < sizes.length ∧
        sizes.getD mergedCount 0 ≤ 0 ∧ armed.consecutiveFailures = 1 ∧
        armed.firstFailedAt = r.armedAt) := by
  intro armed
  by_cases hnone : mergedCount = 0 ∨ sizes.length ≤ mergedCount ∨ probedCount ≤ mergedCount ∨
      ¬ sizes.getD mergedCount 0 ≤ 0
  · left
    have hindex : indexToArmTrackerAfterMerge sizes mergedCount false probedCount =
        sizes.length := by
      unfold indexToArmTrackerAfterMerge
      split
      · rfl
      · next h =>
          rw [if_neg]
          intro hle
          rcases hnone with h0 | h1 | h2 | h3
          · exact h (.inr (.inl h0))
          · exact h (.inr (.inr (.inl h1)))
          · exact h (.inr (.inr (.inr h2)))
          · exact h3 hle
    have hget : pending[sizes.length]? = none := by
      rw [hlength]
      simp
    simp only [armed, hindex, hget]
  · have hparts : 0 < mergedCount ∧ mergedCount < sizes.length ∧ mergedCount < probedCount ∧
        sizes.getD mergedCount 0 ≤ 0 := by
      refine ⟨?_, ?_, ?_, ?_⟩ <;> grind
    obtain ⟨hpos, hlt, hprobed, hfailed⟩ := hparts
    have hindex : indexToArmTrackerAfterMerge sizes mergedCount false probedCount =
        mergedCount := by
      have hskip : ¬ (false = true ∨ mergedCount = 0 ∨ sizes.length ≤ mergedCount ∨
          probedCount ≤ mergedCount) := by
        simp only [Bool.false_eq_true, false_or]
        omega
      rw [indexToArmTrackerAfterMerge, if_neg hskip, if_pos hfailed]
    cases hget : pending[mergedCount]? with
    | none =>
        left
        simp only [armed, hindex, hget]
    | some entry =>
        have harmed : armed = (updateUnprobeableSegmentTracker {} entry.url true r.armedAt).1 := by
          simp only [armed, hindex, hget]
        rcases updateUnprobeableSegmentTracker_cases {} entry.url true r.armedAt with
          ⟨-, hreset⟩ | ⟨hurl, -, count, first, hcount, hcase⟩
        · left
          rw [harmed, hreset]
        · obtain ⟨rfl, rfl⟩ : count = 1 ∧ first = r.armedAt := by
            rcases hcount with ⟨-, hcount, hfirst⟩ | ⟨hsame, -, -⟩
            · exact ⟨hcount, hfirst⟩
            · exact absurd hsame.symm hurl
          rcases hcase with ⟨hmany, -, -⟩ | ⟨-, hkept⟩
          · exact absurd hmany (by decide)
          · right
            rw [harmed, hkept]
            exact ⟨hpos, hprobed, hlt, hfailed, rfl, rfl⟩

/-- The sizes are those of the probes, but for the leading one given up on. -/
theorem probeEntries_sizes :
    let probed := probeEntries tracker (leading :: rest) r
    probed.sizes =
        (if probed.gaveUpOnLeading then (probedSizes tracker (leading :: rest) r).set 0 0
          else probedSizes tracker (leading :: rest) r) ∧
      probed.mergedCount = countMergeableSegments probed.sizes probed.gaveUpOnLeading :=
  ⟨rfl, rfl⟩

/-- The merged entries answered, but for the leading one given up on, and the
one after them did not. -/
theorem probeEntries_merged :
    let pending := leading :: rest
    let probed := probeEntries tracker pending r
    probed.sizes.length = pending.length ∧ probed.mergedCount ≤ pending.length ∧
    (∀ i size, i < probed.mergedCount → probed.sizes[i]? = some size →
      (0 < size ∧ size = r.probe i) ∨
      (i = 0 ∧ size = 0 ∧ probed.gaveUpOnLeading = true)) ∧
    ∀ size, probed.sizes[probed.mergedCount]? = some size → size ≤ 0 := by
  intro pending probed
  have hsizes : probed.sizes = if probed.gaveUpOnLeading then
      (probedSizes tracker pending r).set 0 0 else probedSizes tracker pending r :=
    (probeEntries_sizes tracker leading rest r).1
  have hcount : probed.mergedCount =
      countMergeableSegments probed.sizes probed.gaveUpOnLeading :=
    (probeEntries_sizes tracker leading rest r).2
  have hlength : probed.sizes.length = pending.length := by
    rw [hsizes]
    split <;> simp
  obtain ⟨hle, hmerged, hstop⟩ :=
    countMergeableSegments_spec probed.sizes probed.gaveUpOnLeading
  rw [← hcount] at hle hmerged hstop
  refine ⟨hlength, hlength ▸ hle, fun i size hi hsize => ?_, hstop⟩
  by_cases hleading : probed.gaveUpOnLeading = true ∧ i = 0
  · obtain ⟨hgivenUp, rfl⟩ := hleading
    rw [hsizes, if_pos hgivenUp, List.getElem?_set_self (by simp [pending])] at hsize
    exact .inr ⟨rfl, (Option.some.inj hsize).symm, hgivenUp⟩
  · have hpos : 0 < size := (hmerged i size hi hsize).resolve_right hleading
    have hget : (probedSizes tracker pending r)[i]? = some size := by
      rw [hsizes] at hsize
      split at hsize
      · next hgivenUp =>
          rwa [List.getElem?_set_ne fun h => hleading ⟨hgivenUp, h.symm⟩] at hsize
      · exact hsize
    exact .inl ⟨hpos, (probed_of_pos hpos hget).2⟩

/-- The leading entry answered: the tracker is that of the first entry to fail
behind it, if one did. -/
theorem probeEntries_answered
    (hupdate : updateUnprobeableSegmentTracker tracker leading.url (decide (r.probe 0 ≤ 0))
      r.probedAt = ({}, false)) :
    let pending := leading :: rest
    let probed := probeEntries tracker pending r
    probed.gaveUpOnLeading = false ∧
      (probed.tracker = {} ∨
        (0 < probed.mergedCount ∧ probed.mergedCount < probeCount tracker pending ∧
          r.probe probed.mergedCount ≤ 0 ∧ probed.tracker.consecutiveFailures = 1 ∧
          probed.tracker.firstFailedAt = r.armedAt)) := by
  intro pending probed
  have hprobed : probed = probeEntries tracker (leading :: rest) r := rfl
  simp only [probeEntries, probedSizes_zero, hupdate, Bool.false_eq_true, if_false] at hprobed
  rcases arm_cases r (probedSizes tracker pending r)
      (countMergeableSegments (probedSizes tracker pending r) false) (probeCount tracker pending)
      pending (length_probedSizes tracker pending r) with
    hnone | ⟨hpos, hcounted, hlt, hfailed, hcount, hfirst⟩
  · rw [hprobed]
    exact ⟨rfl, .inl hnone⟩
  · rw [hprobed]
    refine ⟨rfl, .inr ⟨hpos, hcounted, ?_, hcount, hfirst⟩⟩
    have hget := List.getElem?_eq_getElem hlt
    have hsize := (getElem?_probedSizes hget).2
    rw [if_pos hcounted] at hsize
    rw [List.getD_eq_getElem?_getD, hget, Option.getD_some, hsize] at hfailed
    exact hfailed

/-- The leading entry was given up on: nothing is tracked any more. -/
theorem probeEntries_givenUp
    (hupdate : updateUnprobeableSegmentTracker tracker leading.url (decide (r.probe 0 ≤ 0))
      r.probedAt = ({}, true)) :
    let probed := probeEntries tracker (leading :: rest) r
    probed.gaveUpOnLeading = true ∧ probed.tracker = {} := by
  intro probed
  have hprobed : probed = probeEntries tracker (leading :: rest) r := rfl
  simp only [probeEntries, probedSizes_zero, hupdate, if_true] at hprobed
  have hindex : ∀ (sizes : List Int) (n m : Nat),
      indexToArmTrackerAfterMerge sizes n true m = sizes.length := by
    intro sizes n m
    simp [indexToArmTrackerAfterMerge]
  rw [hprobed]
  refine ⟨rfl, ?_⟩
  simp only [hindex, List.length_set, length_probedSizes]
  simp

/-- The leading entry failed and is retried: nothing is merged. -/
theorem probeEntries_retried (hfailed : r.probe 0 ≤ 0) {retried : UnprobeableSegmentTracker}
    (hupdate : updateUnprobeableSegmentTracker tracker leading.url (decide (r.probe 0 ≤ 0))
      r.probedAt = (retried, false)) :
    let probed := probeEntries tracker (leading :: rest) r
    probed.gaveUpOnLeading = false ∧ probed.mergedCount = 0 ∧ probed.tracker = retried := by
  intro probed
  have hprobed : probed = probeEntries tracker (leading :: rest) r := rfl
  simp only [probeEntries, probedSizes_zero, hupdate, Bool.false_eq_true, if_false] at hprobed
  have hzero : countMergeableSegments (probedSizes tracker (leading :: rest) r) false = 0 := by
    have hleading := probedSizes_zero tracker leading rest r
    cases hsizes : probedSizes tracker (leading :: rest) r with
    | nil =>
        have hlength := length_probedSizes tracker (leading :: rest) r
        rw [hsizes] at hlength
        simp at hlength
    | cons size more =>
        obtain rfl : size = r.probe 0 := by simpa [hsizes] using hleading
        have hnot : ¬ r.probe 0 > 0 := by omega
        simp [countMergeableSegments, countLeadingProbedSegments_cons, hnot]
  have hindex : indexToArmTrackerAfterMerge (probedSizes tracker (leading :: rest) r) 0 false
      (probeCount tracker (leading :: rest)) = (leading :: rest).length := by
    simp [indexToArmTrackerAfterMerge]
  rw [hprobed]
  refine ⟨rfl, hzero, ?_⟩
  simp only [hzero, hindex]
  simp

/-- What a refresh does with its new entries: the leading one given up on, all
left because it failed, or the leading ones that answered merged. -/
theorem probeEntries_cases :
    let pending := leading :: rest
    let probed := probeEntries tracker pending r
    probed.sizes.length = pending.length ∧ probed.mergedCount ≤ pending.length ∧
    (∀ i size, i < probed.mergedCount → probed.sizes[i]? = some size →
      (0 < size ∧ size = r.probe i) ∨
      (i = 0 ∧ size = 0 ∧ probed.gaveUpOnLeading = true)) ∧
    (∀ size, probed.sizes[probed.mergedCount]? = some size → size ≤ 0) ∧
    ((probed.tracker = {} ∧ probed.gaveUpOnLeading = false) ∨
      -- the first entry that failed behind one that answered
      (probed.gaveUpOnLeading = false ∧ 0 < probed.mergedCount ∧
        probed.mergedCount < probeCount tracker pending ∧ r.probe probed.mergedCount ≤ 0 ∧
        probed.tracker.consecutiveFailures = 1 ∧ probed.tracker.firstFailedAt = r.armedAt) ∨
      -- the leading entry failed
      (r.probe 0 ≤ 0 ∧ ∃ count first,
        (count = 1 ∧ first = r.probedAt ∨
          count = tracker.consecutiveFailures + 1 ∧ first = tracker.firstFailedAt ∧
            tracker ≠ {}) ∧
        ((probed.gaveUpOnLeading = true ∧ probed.tracker = {} ∧
            unprobeableSegmentMinFailures ≤ count ∧
            unprobeableSegmentMinWait ≤ r.probedAt - first) ∨
          (probed.gaveUpOnLeading = false ∧ probed.mergedCount = 0 ∧
            probed.tracker.consecutiveFailures = count ∧
            probed.tracker.firstFailedAt = first)))) := by
  intro pending probed
  obtain ⟨hlength, hle, hmerged, hstop⟩ := probeEntries_merged tracker leading rest r
  refine ⟨hlength, hle, hmerged, hstop, ?_⟩
  rcases updateUnprobeableSegmentTracker_cases tracker leading.url (decide (r.probe 0 ≤ 0))
      r.probedAt with ⟨-, hupdate⟩ | ⟨hurl, hfailed, count, first, hcount, hcase⟩
  · rcases probeEntries_answered tracker leading rest r hupdate with ⟨hkept, hnone | harmed⟩
    · exact .inl ⟨hnone, hkept⟩
    · exact .inr (.inl ⟨hkept, harmed⟩)
  · right
    right
    have hprobe : r.probe 0 ≤ 0 := by simpa using hfailed
    have hcounted : count = 1 ∧ first = r.probedAt ∨
        count = tracker.consecutiveFailures + 1 ∧ first = tracker.firstFailedAt ∧ tracker ≠ {} := by
      rcases hcount with ⟨-, hone, hfirst⟩ | ⟨hsame, hmore, hfirst⟩
      · exact .inl ⟨hone, hfirst⟩
      · refine .inr ⟨hmore, hfirst, ?_⟩
        rintro rfl
        exact hurl hsame.symm
    refine ⟨hprobe, count, first, hcounted, ?_⟩
    rcases hcase with ⟨hmany, hlong, hupdate⟩ | ⟨-, hupdate⟩
    · obtain ⟨hgivenUp, htracker⟩ := probeEntries_givenUp tracker leading rest r hupdate
      exact .inl ⟨hgivenUp, htracker, hmany, hlong⟩
    · obtain ⟨hkept, hzero, htracker⟩ := probeEntries_retried tracker leading rest r hprobe hupdate
      refine .inr ⟨hkept, hzero, ?_, ?_⟩
      · exact congrArg (·.consecutiveFailures) htracker
      · exact congrArg (·.firstFailedAt) htracker

end Probed

/-- Every new entry has a size, and no more than those are merged. -/
theorem mergedCount_le (tracker : UnprobeableSegmentTracker) (pending : List M3u8SegmentEntry)
    (r : InProgressRefresh) :
    (probeEntries tracker pending r).sizes.length = pending.length ∧
      (probeEntries tracker pending r).mergedCount ≤ pending.length := by
  cases pending with
  | nil => exact ⟨rfl, Nat.le_refl 0⟩
  | cons leading rest =>
      obtain ⟨hlength, hle, -⟩ := probeEntries_cases tracker leading rest r
      exact ⟨hlength, hle⟩

/-! ## one refresh -/

/-- A refresh and the stream it is applied to. -/
abbrev RefreshStep := InProgressRecordingStreamState × InProgressRefresh

/-- The playlist a refresh fetched, unless it fetched none. -/
def fetchedText (step : RefreshStep) : Option ByteString :=
  if step.1.contentGone ||
      shouldSkipPlaylistAfterUnansweredLookup step.2.coldStart (!step.1.segments.isEmpty)
        step.2.lookup then none
  else
    match step.2.playlist with
    | .fetched playlistText => some playlistText
    | .failed _ => none

/-- The refresh probed the playlist's `k`-th entry, and the probe failed. -/
def ProbeFailed (source : InProgressSource) (step : RefreshStep) (k : Nat) : Prop :=
  ∃ playlistText, fetchedText step = some playlistText ∧ step.1.segments.length ≤ k ∧
    k - step.1.segments.length <
      probeCount step.1.unprobeableSegment (source.pending playlistText step.1.segments.length) ∧
    step.2.probe (k - step.1.segments.length) ≤ 0

/-- The clock at which the failure of the `k`-th entry was noted. -/
def failedAt (step : RefreshStep) (k : Nat) : Int :=
  if step.1.segments.length = k then step.2.probedAt else step.2.armedAt

/-- The last refreshes of the history all failed to size the `k`-th entry,
enough of them and over enough time to give up on it. -/
def Retried (source : InProgressSource) (history : List RefreshStep) (k : Nat) : Prop :=
  ∃ earlier failing first last, history = earlier ++ failing ∧
    unprobeableSegmentMinFailures ≤ failing.length ∧
    failing.head? = some first ∧ failing.getLast? = some last ∧
    unprobeableSegmentMinWait ≤ failedAt last k - failedAt first k ∧
    ∀ step ∈ failing, ProbeFailed source step k

/-- The tracker counts the last refreshes, which all failed to size the next
entry. -/
def Tracks (source : InProgressSource) (entries : List M3u8SegmentEntry)
    (history : List RefreshStep) (st : InProgressRecordingStreamState) : Prop :=
  st.unprobeableSegment = {} ∨
    (st.segments.length < entries.length ∧
      ∃ earlier failing first, history = earlier ++ failing ∧
        failing.length = st.unprobeableSegment.consecutiveFailures ∧
        failing.head? = some first ∧
        failedAt first st.segments.length = st.unprobeableSegment.firstFailedAt ∧
        ∀ step ∈ failing, ProbeFailed source step st.segments.length)

namespace InProgressRecordingStreamState

theorem segments_foldl_append (source : InProgressSource) (st : InProgressRecordingStreamState)
    (sized : List (M3u8SegmentEntry × Int)) :
    (sized.foldl (append source) st).unprobeableSegment = st.unprobeableSegment ∧
      (sized.foldl (append source) st).contentGone = st.contentGone ∧
      ∃ new, (sized.foldl (append source) st).segments = st.segments ++ new ∧
        new.length = sized.length := by
  induction sized generalizing st with
  | nil => exact ⟨rfl, rfl, [], by simp, rfl⟩
  | cons first sized ih =>
      obtain ⟨htracker, hgone, new, hsegments, hlength⟩ := ih (st.append source first)
      rw [List.foldl_cons, htracker, hgone, hsegments, segments_append]
      exact ⟨rfl, rfl, ⟨first.1.url, first.2, st.totalBytes, st.totalDurationMs⟩ :: new, by simp,
        by simp [hlength]⟩

/-- A refresh that fetches no playlist leaves the segments and the tracker. -/
theorem refresh_of_not_fetched (source : InProgressSource)
    {st : InProgressRecordingStreamState} {r : InProgressRefresh}
    (h : fetchedText (st, r) = none) :
    (st.refresh source r).segments = st.segments ∧
      (st.refresh source r).totalBytes = st.totalBytes ∧
      (st.refresh source r).totalDurationMs = st.totalDurationMs ∧
      (st.refresh source r).unprobeableSegment = st.unprobeableSegment := by
  unfold refresh
  split
  · exact ⟨rfl, rfl, rfl, rfl⟩
  · next hgone =>
      split
      · exact ⟨rfl, rfl, rfl, rfl⟩
      · next hskip =>
          cases hplaylist : r.playlist with
          | fetched playlistText =>
              simp only [fetchedText, hplaylist] at h
              rw [if_neg (by simp [hgone, hskip])] at h
              contradiction
          | failed wasNotFound =>
              simp only
              split <;> exact ⟨rfl, rfl, rfl, rfl⟩

/-- A refresh that fetches one merges its entries. -/
theorem refresh_of_fetched (source : InProgressSource)
    {st : InProgressRecordingStreamState} {r : InProgressRefresh}
    {playlistText : ByteString} (h : fetchedText (st, r) = some playlistText) :
    (st.refresh source r).segments = (st.merge source playlistText r).segments ∧
      (st.refresh source r).totalBytes = (st.merge source playlistText r).totalBytes ∧
      (st.refresh source r).totalDurationMs = (st.merge source playlistText r).totalDurationMs ∧
      (st.refresh source r).unprobeableSegment =
        (st.merge source playlistText r).unprobeableSegment := by
  simp only [fetchedText] at h
  split at h
  · contradiction
  · next hfetches =>
      have hparts : st.contentGone = false ∧
          shouldSkipPlaylistAfterUnansweredLookup r.coldStart (!st.segments.isEmpty) r.lookup =
            false := by
        simpa using hfetches
      cases hplaylist : r.playlist with
      | failed wasNotFound => simp [hplaylist] at h
      | fetched text =>
          obtain rfl : text = playlistText := by simpa [hplaylist] using h
          simp [refresh, hparts.1, hparts.2, hplaylist]

/-- A fetched playlist adds as many segments as are merged. -/
theorem segments_merge (source : InProgressSource) (st : InProgressRecordingStreamState)
    (playlistText : ByteString) (r : InProgressRefresh) :
    let probed := probeEntries st.unprobeableSegment
      (source.pending playlistText st.segments.length) r
    (st.merge source playlistText r).unprobeableSegment = probed.tracker ∧
      (st.merge source playlistText r).contentGone = st.contentGone ∧
      ∃ new, (st.merge source playlistText r).segments = st.segments ++ new ∧
        new.length = probed.mergedCount := by
  intro probed
  obtain ⟨hlength, hle⟩ : probed.sizes.length =
      (source.pending playlistText st.segments.length).length ∧
      probed.mergedCount ≤ (source.pending playlistText st.segments.length).length :=
    mergedCount_le ..
  obtain ⟨htracker, hgone, new, hsegments, hcount⟩ := segments_foldl_append source
    { st with unprobeableSegment := probed.tracker }
    (((source.pending playlistText st.segments.length).zip probed.sizes).take probed.mergedCount)
  refine ⟨htracker, hgone, new, hsegments, ?_⟩
  rw [hcount, List.length_take, List.length_zip]
  omega

/-- What a fetched playlist adds: the next entries, each with the size its probe
gave, or without one when it is the leading one and was given up on. -/
theorem merge_spec {st : InProgressRecordingStreamState} {playlistText : ByteString}
    (h : Merged source (source.entries playlistText) st) (r : InProgressRefresh) :
    let pending := source.pending playlistText st.segments.length
    let probed := probeEntries st.unprobeableSegment pending r
    Merged source (source.entries playlistText) (st.merge source playlistText r) ∧
      (st.merge source playlistText r).unprobeableSegment = probed.tracker ∧
      ∃ new, (st.merge source playlistText r).segments = st.segments ++ new ∧
        new.length = probed.mergedCount ∧
        ∀ i seg, new[i]? = some seg →
          (0 < seg.byteSize ∧ seg.byteSize = r.probe i) ∨
          (i = 0 ∧ seg.byteSize = 0 ∧ probed.gaveUpOnLeading = true) := by
  intro pending probed
  have hpending : pending = (source.entries playlistText).drop st.segments.length :=
    source.pending_eq_drop playlistText st.segments.length
  obtain ⟨hlength, hle⟩ : probed.sizes.length = pending.length ∧
      probed.mergedCount ≤ pending.length :=
    mergedCount_le st.unprobeableSegment pending r
  have hsizes : ∀ i size, i < probed.mergedCount → probed.sizes[i]? = some size →
      (0 < size ∧ size = r.probe i) ∨
      (i = 0 ∧ size = 0 ∧ probed.gaveUpOnLeading = true) := by
    cases hcases : pending with
    | nil => simp [probed, hcases, probeEntries]
    | cons leading rest =>
        have hspec := probeEntries_cases st.unprobeableSegment leading rest r
        simp only [probed, hcases]
        exact hspec.2.2.1
  have hfst : ((pending.zip probed.sizes).take probed.mergedCount).map (·.1) =
      pending.take probed.mergedCount := by
    rw [List.map_take, List.map_fst_zip (by omega)]
  have hsnd : ((pending.zip probed.sizes).take probed.mergedCount).map (·.2) =
      probed.sizes.take probed.mergedCount := by
    rw [List.map_take, List.map_snd_zip (by omega)]
  have hstart : Merged source (source.entries playlistText)
      { st with unprobeableSegment := probed.tracker } := h.congr rfl rfl rfl
  have hsized : ((pending.zip probed.sizes).take probed.mergedCount).map (·.1) <+:
      (source.entries playlistText).drop st.segments.length := by
    rw [hfst, hpending]
    exact List.take_prefix ..
  obtain ⟨hmerged, new, hsegments, hnew⟩ := hstart.foldl_append hsized
  rw [hsnd] at hnew
  refine ⟨hmerged, (segments_foldl_append source _ _).1, new, hsegments, ?_, ?_⟩
  · have hcount := congrArg List.length hnew
    rw [List.length_map, List.length_take, hlength] at hcount
    omega
  · intro i seg hseg
    have hsize : (probed.sizes.take probed.mergedCount)[i]? = some seg.byteSize := by
      rw [← hnew, List.getElem?_map, hseg]
      rfl
    have hi : i < probed.mergedCount := by
      have hlt := (List.getElem?_eq_some_iff.mp hsize).1
      rw [List.length_take] at hlt
      omega
    rw [List.getElem?_take_of_lt hi] at hsize
    exact hsizes i seg.byteSize hi hsize

end InProgressRecordingStreamState

end DispatcharrPvr
