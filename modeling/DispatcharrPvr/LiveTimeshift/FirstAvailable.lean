import DispatcharrPvr.Lib.Runs
import DispatcharrPvr.LiveTimeshift.AddressSpace
import Mathlib.Data.List.Pairwise
import Mathlib.Data.List.TakeDrop

/-!
# LiveTimeshift.FirstAvailable

The first position the plugin still holds, as a seek and the reported buffer
start use it.  It is looked up in the held segments by the lowest sequence any
manifest has listed, and is 0 when none of them reaches it: that happens when
a manifest lists a newer sequence that does not become a segment.
-/

namespace DispatcharrPvr

open Layout Runs

/-- Where everything held is below the oldest sequence, pruning leaves the last
segment alone. -/
theorem pruneRolledOffLiveSegments_of_below {segments : List LiveTimeshiftSegmentInfo}
    {oldest : Int} (hne : segments ≠ [])
    (hbelow : ∀ seg ∈ segments, 0 ≤ seg.sequence ∧ seg.sequence < oldest) :
    pruneRolledOffLiveSegments segments oldest = [segments.getLast hne] := by
  have hlast := hbelow _ (List.getLast_mem hne)
  have hindex : firstAvailableLiveSegmentIndex segments oldest = segments.length := by
    rw [firstAvailableLiveSegmentIndex, if_neg (by omega)]
    exact List.findIdx_eq_length_of_false fun seg hseg => by simp [hbelow seg hseg]
  rw [pruneRolledOffLiveSegments, hindex, Nat.min_eq_right (Nat.sub_le ..),
    List.drop_length_sub_one hne]
  split
  · next hshort =>
      have hpos := List.length_pos_iff.mpr hne
      obtain ⟨a, rfl⟩ := List.length_eq_one_iff.mp (by omega : segments.length = 1)
      rfl
  · rfl

/-- A trim leaves the oldest available sequence as it is. -/
@[simp] theorem oldestAvailableSequence_trim (s : LiveTimeshiftStreamState) (marginSegments : Nat) :
    (trimToTrailingLiveEdgeMargin s marginSegments).oldestAvailableSequence =
      s.oldestAvailableSequence := by
  simp only [trimToTrailingLiveEdgeMargin]
  split
  · rfl
  · split
    · rfl
    · split <;> rfl

namespace Held

variable {s : LiveTimeshiftStreamState} {merged : List Int}

/-! ## the lookup -/

/-- The first available segment is the first one not below the oldest
sequence. -/
theorem firstAvailable_eq (h : Held s merged) :
    s.firstAvailable =
      s.segments.find? fun seg => !decide (seg.sequence < s.oldestAvailableSequence) := by
  rw [LiveTimeshiftStreamState.firstAvailable, firstAvailableLiveSegmentIndex]
  split
  · next hunknown =>
      cases hsegs : s.segments with
      | nil => rfl
      | cons first rest =>
          have hmem : first.sequence ∈ merged :=
            h.held.subset (List.mem_map_of_mem (by rw [hsegs]; exact List.mem_cons_self ..))
          have hnonneg := h.nonneg _ hmem
          have hnot : ¬ first.sequence < s.oldestAvailableSequence := by omega
          simp [hnot]
  · rw [List.find?_eq_getElem?_findIdx]

theorem firstAvailable_eq_none_iff (h : Held s merged) :
    s.firstAvailable = none ↔ ∀ b ∈ s.segments, b.sequence < s.oldestAvailableSequence := by
  rw [h.firstAvailable_eq, List.find?_eq_none]
  simp

theorem pairwise_byteOffset (h : Held s merged) :
    s.segments.Pairwise fun a b => a.byteOffset ≤ b.byteOffset := by
  obtain ⟨lo, -, hrow⟩ := h.inRow
  exact hrow.pairwise_start

/-- Held segments are in order of both offsets. -/
theorem pairwise_offsets (h : Held s merged) :
    s.segments.Pairwise fun a b => a.byteOffset ≤ b.byteOffset ∧ a.timeOffsetMs ≤ b.timeOffsetMs :=
  h.pairwise_byteOffset.and h.times

/-- It comes before every other segment the plugin still holds. -/
theorem firstAvailable_le (h : Held s merged) {a b : LiveTimeshiftSegmentInfo}
    (ha : s.firstAvailable = some a) (hb : b ∈ s.segments)
    (havailable : s.oldestAvailableSequence ≤ b.sequence) :
    a.byteOffset ≤ b.byteOffset ∧ a.timeOffsetMs ≤ b.timeOffsetMs := by
  rw [h.firstAvailable_eq] at ha
  have hnot : (!decide (b.sequence < s.oldestAvailableSequence)) = true := by
    simpa using havailable
  rcases rel_of_find? h.pairwise_offsets ha hb hnot with rfl | hle
  · exact ⟨Int.le_refl _, Int.le_refl _⟩
  · exact hle

theorem firstAvailable_mem (h : Held s merged) {a : LiveTimeshiftSegmentInfo}
    (ha : s.firstAvailable = some a) :
    a ∈ s.segments ∧ s.oldestAvailableSequence ≤ a.sequence := by
  rw [h.firstAvailable_eq] at ha
  have hnot := List.find?_some ha
  exact ⟨List.mem_of_find?_eq_some ha, by simpa using hnot⟩

/-- A held segment lies at or behind the origin, and ahead of the totals. -/
theorem offsets_bounds (h : Held s merged) {a : LiveTimeshiftSegmentInfo} (ha : a ∈ s.segments) :
    (0 ≤ a.byteOffset ∧ a.byteOffset ≤ s.totalBytes) ∧
      0 ≤ a.timeOffsetMs ∧ a.timeOffsetMs ≤ s.totalDurationMs := by
  obtain ⟨lo, hlo, hrow⟩ := h.inRow
  have := hrow.mem ha
  exact ⟨by omega, h.times_le a ha⟩

end Held

/-! ## what a run of refreshes keeps -/

namespace LiveTimeshiftStreamState

/-- The first available position of `s` is not past that of `s'`. -/
def NotPast (s s' : LiveTimeshiftStreamState) : Prop :=
  s.firstAvailableLiveByteOffset ≤ s'.firstAvailableLiveByteOffset ∧
    s.getLiveTimeshiftStreamBeginMs ≤ s'.getLiveTimeshiftStreamBeginMs

/-- The first available position is not before the first held segment. -/
def AtFirstHeld (s : LiveTimeshiftStreamState) : Prop :=
  ∀ first, s.segments.head? = some first →
    first.byteOffset ≤ s.firstAvailableLiveByteOffset ∧
      first.timeOffsetMs ≤ s.getLiveTimeshiftStreamBeginMs

/-- The newest sequence known once a manifest is merged. -/
def newestAfter (s : LiveTimeshiftStreamState) (segmentsArray : List Json) : Int :=
  ((parseNewLiveManifestSegments segmentsArray s.lastKnownSequence).getLast?.map
    (·.sequence)).getD s.lastKnownSequence

/-- What is held or new in the manifest reaches the oldest sequence ever listed,
or it is a single segment at the origin. -/
def KeepsFirstAvailable (s : LiveTimeshiftStreamState) (segmentsArray : List Json) : Prop :=
  max s.oldestAvailableSequence (oldestLiveManifestSequence segmentsArray) ≤
      s.newestAfter segmentsArray ∨
    s.segments.length +
        (parseNewLiveManifestSegments segmentsArray s.lastKnownSequence).length ≤ 1 ∧
      ∀ seg ∈ s.segments, seg.byteOffset = 0

instance (s s' : LiveTimeshiftStreamState) : Decidable (s.NotPast s') :=
  inferInstanceAs (Decidable (_ ∧ _))

instance (s : LiveTimeshiftStreamState) : Decidable s.AtFirstHeld :=
  inferInstanceAs (Decidable (∀ first ∈ s.segments.head?, _ ∧ _))

instance (s : LiveTimeshiftStreamState) (segmentsArray : List Json) :
    Decidable (s.KeepsFirstAvailable segmentsArray) :=
  inferInstanceAs (Decidable (_ ∨ _ ∧ ∀ seg ∈ s.segments, seg.byteOffset = 0))

theorem NotPast.trans {s s' s'' : LiveTimeshiftStreamState} (h : NotPast s s')
    (h' : NotPast s' s'') : NotPast s s'' :=
  ⟨Int.le_trans h.1 h'.1, Int.le_trans h.2 h'.2⟩

theorem offsets_of_some {s : LiveTimeshiftStreamState} {a : LiveTimeshiftSegmentInfo}
    (ha : s.firstAvailable = some a) :
    s.firstAvailableLiveByteOffset = a.byteOffset ∧
      s.getLiveTimeshiftStreamBeginMs = a.timeOffsetMs := by
  simp [firstAvailableLiveByteOffset, getLiveTimeshiftStreamBeginMs, ha]

/-- The fallback. -/
theorem offsets_of_none {s : LiveTimeshiftStreamState} (h : s.firstAvailable = none) :
    s.firstAvailableLiveByteOffset = 0 ∧ s.getLiveTimeshiftStreamBeginMs = 0 := by
  simp [firstAvailableLiveByteOffset, getLiveTimeshiftStreamBeginMs, h]

theorem oldestAfter_eq_max (s : LiveTimeshiftStreamState) (segmentsArray : List Json) :
    s.oldestAfter segmentsArray =
      max s.oldestAvailableSequence (oldestLiveManifestSequence segmentsArray) := by
  simp only [oldestAfter]
  split <;> omega

end LiveTimeshiftStreamState

namespace LiveSession

open LiveTimeshiftStreamState

/-- Where everything held starts at the origin, so does the first available. -/
theorem offsets_of_origin {t : LiveSession} (h : t.Ok)
    (horigin : ∀ seg ∈ t.stream.segments, seg.byteOffset = 0) :
    t.stream.firstAvailableLiveByteOffset = 0 ∧ t.stream.getLiveTimeshiftStreamBeginMs = 0 := by
  cases hfound : t.stream.firstAvailable with
  | none => exact offsets_of_none hfound
  | some a =>
      have ha := (h.firstAvailable_mem hfound).1
      rw [(offsets_of_some hfound).1, (offsets_of_some hfound).2]
      exact ⟨horigin a ha, h.origin a ha (horigin a ha)⟩

theorem atFirstHeld_of_origin {t : LiveSession} (h : t.Ok)
    (horigin : ∀ seg ∈ t.stream.segments, seg.byteOffset = 0) : t.stream.AtFirstHeld := by
  intro first hfirst
  have hmem := List.mem_of_mem_head? hfirst
  have hzero := horigin first hmem
  obtain ⟨hbyte, htime⟩ := offsets_of_origin h horigin
  rw [hbyte, htime, hzero, h.origin first hmem hzero]
  exact ⟨Int.le_refl _, Int.le_refl _⟩

/-- Where the lookup finds a segment, nothing can be before it. -/
theorem atFirstHeld_of_some {t : LiveSession} (h : t.Ok) {a : LiveTimeshiftSegmentInfo}
    (ha : t.stream.firstAvailable = some a) : t.stream.AtFirstHeld := by
  intro first hfirst
  obtain ⟨rest, hsegs⟩ := List.head?_eq_some_iff.mp hfirst
  have hmem := (h.firstAvailable_mem ha).1
  have hoffsets := h.pairwise_offsets
  rw [(offsets_of_some ha).1, (offsets_of_some ha).2]
  rw [hsegs] at hmem hoffsets
  rcases List.mem_cons.mp hmem with rfl | hmem
  · exact ⟨Int.le_refl _, Int.le_refl _⟩
  · exact (List.pairwise_cons.mp hoffsets).1 a hmem

section Refresh

variable {t : LiveSession} {segmentsArray : List Json}

/-- Pruning keeps the last segment. -/
theorem getLast?_refresh :
    (t.refresh segmentsArray).stream.segments.getLast? =
      (t.stream.merge segmentsArray).segments.getLast? := by
  obtain ⟨n, hsegs, hn⟩ := t.segments_refresh segmentsArray
  rw [hsegs, List.getLast?_drop]
  split
  · next hall =>
      have hnil : (t.stream.merge segmentsArray).segments = [] := Classical.byContradiction
        fun hne => by
          have := hn hne
          omega
      rw [hnil]
      rfl
  · rfl

theorem lastKnownSequence_merge (h : t.Ok) :
    (t.stream.merge segmentsArray).lastKnownSequence = t.stream.newestAfter segmentsArray := by
  obtain ⟨-, news, hsegs, hseqs, -⟩ := merge_spec h segmentsArray
  rw [newestAfter, ← List.getLast?_map, ← hseqs, List.getLast?_map]
  conv => lhs; rw [LiveTimeshiftStreamState.lastKnownSequence, hsegs, List.getLast?_append]
  cases news.getLast? <;> rfl

/-- What is held after the merge starts at the origin only when it is a single
segment. -/
theorem origin_merge_iff (h : t.Ok) :
    (∀ seg ∈ (t.stream.merge segmentsArray).segments, seg.byteOffset = 0) ↔
      t.stream.segments.length + (parseNewLiveManifestSegments segmentsArray
          t.stream.lastKnownSequence).length ≤ 1 ∧
        ∀ seg ∈ t.stream.segments, seg.byteOffset = 0 := by
  obtain ⟨hmerge, news, hsegs, hseqs, -⟩ := merge_spec h segmentsArray
  have hlength := congrArg List.length hseqs
  simp only [List.length_map] at hlength
  rw [← hlength, ← List.length_append, ← hsegs]
  constructor
  · intro horigin
    refine ⟨?_, fun seg hseg => horigin seg (by rw [hsegs]; exact List.mem_append_left _ hseg)⟩
    obtain ⟨lo, -, hrow⟩ := hmerge.inRow
    -- a second segment would start where the first ends
    match hlist : (t.stream.merge segmentsArray).segments with
    | [] => exact Nat.zero_le _
    | [_] => exact Nat.le_refl _
    | a :: b :: rest =>
        have hnext := hrow.next (i := 0) (a := a) (b := b) (by rw [hlist]; rfl) (by rw [hlist]; rfl)
        have ha := horigin a (by simp [hlist])
        have hb := horigin b (by simp [hlist])
        have hsize := (hrow.mem (a := a) (by simp [hlist])).2.1
        omega
  · rintro ⟨hone, hheld⟩
    cases hentries : parseNewLiveManifestSegments segmentsArray t.stream.lastKnownSequence with
    | nil =>
        rw [LiveTimeshiftStreamState.merge, hentries]
        exact hheld
    | cons entry rest =>
        rw [hsegs, List.length_append, hlength, hentries, List.length_cons] at hone
        have hnone : t.stream.segments = [] := List.length_eq_zero_iff.mp (by omega)
        obtain rfl : rest = [] := List.length_eq_zero_iff.mp (by omega)
        -- nothing was ever held, so the totals are 0 yet
        have hmerged : t.merged = [] := Classical.byContradiction fun hne => h.last_held hne hnone
        have hbytes := h.bytes_le
        rw [hmerged, List.length_nil, Int.natCast_zero, Int.mul_zero] at hbytes
        have htotal : t.stream.totalBytes = 0 := Int.le_antisymm hbytes h.totalBytes_nonneg
        intro seg hseg
        rw [LiveTimeshiftStreamState.merge, hentries, List.foldl_cons, List.foldl_nil,
          LiveTimeshiftStreamState.appendEntry, hnone] at hseg
        rw [List.mem_singleton.mp hseg]
        exact htotal

/-- The condition on the manifest, as a condition on what the merge leaves. -/
theorem keepsFirstAvailable_merge_iff (h : t.Ok) :
    t.stream.KeepsFirstAvailable segmentsArray ↔
      t.stream.oldestAfter segmentsArray ≤ (t.stream.merge segmentsArray).lastKnownSequence ∨
        ∀ seg ∈ (t.stream.merge segmentsArray).segments, seg.byteOffset = 0 := by
  rw [LiveTimeshiftStreamState.KeepsFirstAvailable, oldestAfter_eq_max, lastKnownSequence_merge h,
    origin_merge_iff h]

/-- A refresh that keeps the first available position finds none only where
everything held starts at the origin. -/
theorem origin_of_none (h : t.Ok) (hkeeps : t.stream.KeepsFirstAvailable segmentsArray)
    (hnone : (t.refresh segmentsArray).stream.firstAvailable = none) :
    ∀ seg ∈ (t.stream.merge segmentsArray).segments, seg.byteOffset = 0 := by
  rcases (keepsFirstAvailable_merge_iff h).mp hkeeps with hreached | horigin
  · -- the last segment would be found
    intro seg hseg
    have hbelow := (ok_refresh h segmentsArray).firstAvailable_eq_none_iff.mp hnone
    have hne := List.ne_nil_of_mem hseg
    have hlast := List.getLast?_eq_some_getLast hne
    have hmem := List.mem_of_getLast? ((getLast?_refresh (t := t)).trans hlast)
    have hlt := hbelow _ hmem
    rw [LiveTimeshiftStreamState.lastKnownSequence, hlast] at hreached
    have hle : t.stream.oldestAfter segmentsArray ≤
        ((t.stream.merge segmentsArray).segments.getLast hne).sequence := hreached
    have holdest : (t.refresh segmentsArray).stream.oldestAvailableSequence =
        t.stream.oldestAfter segmentsArray := rfl
    omega
  · exact horigin

theorem mem_merge_of_mem_refresh {seg : LiveTimeshiftSegmentInfo}
    (hseg : seg ∈ (t.refresh segmentsArray).stream.segments) :
    seg ∈ (t.stream.merge segmentsArray).segments := by
  obtain ⟨n, hsegs, -⟩ := t.segments_refresh segmentsArray
  rw [hsegs] at hseg
  exact List.mem_of_mem_drop hseg

/-- **One refresh that keeps it** moves the first available position forward
only, and not before the first held segment. -/
theorem refresh_keeps (h : t.Ok) (hkeeps : t.stream.KeepsFirstAvailable segmentsArray) :
    t.stream.NotPast (t.refresh segmentsArray).stream ∧
      (t.refresh segmentsArray).stream.AtFirstHeld := by
  have hok := ok_refresh h segmentsArray
  obtain ⟨-, news, hsegs, -, hoffsets⟩ := merge_spec h segmentsArray
  have holdest : t.stream.oldestAvailableSequence ≤
      (t.refresh segmentsArray).stream.oldestAvailableSequence := by
    have hmax := oldestAfter_eq_max t.stream segmentsArray
    show _ ≤ t.stream.oldestAfter segmentsArray
    omega
  cases hfound : (t.refresh segmentsArray).stream.firstAvailable with
  | none =>
      have horigin := origin_of_none h hkeeps hfound
      have hbefore := offsets_of_origin h fun a ha =>
        horigin a (by rw [hsegs]; exact List.mem_append_left _ ha)
      have hheld : ∀ seg ∈ (t.refresh segmentsArray).stream.segments, seg.byteOffset = 0 :=
        fun a ha => horigin a (mem_merge_of_mem_refresh ha)
      have hafter := offsets_of_origin hok hheld
      refine ⟨?_, atFirstHeld_of_origin hok hheld⟩
      rw [NotPast, hbefore.1, hbefore.2, hafter.1, hafter.2]
      exact ⟨Int.le_refl _, Int.le_refl _⟩
  | some b =>
      refine ⟨?_, atFirstHeld_of_some hok hfound⟩
      obtain ⟨hb, havailable⟩ := hok.firstAvailable_mem hfound
      have hbounds := hok.offsets_bounds hb
      rw [NotPast, (offsets_of_some hfound).1, (offsets_of_some hfound).2]
      cases hbefore : t.stream.firstAvailable with
      | none =>
          rw [(offsets_of_none hbefore).1, (offsets_of_none hbefore).2]
          exact ⟨hbounds.1.1, hbounds.2.1⟩
      | some a =>
          rw [(offsets_of_some hbefore).1, (offsets_of_some hbefore).2]
          have hb := mem_merge_of_mem_refresh hb
          rw [hsegs] at hb
          rcases List.mem_append.mp hb with hb | hb
          · exact h.firstAvailable_le hbefore hb (Int.le_trans holdest havailable)
          · -- a new segment lies behind everything that was held
            have hnew := hoffsets b hb
            have hold := h.offsets_bounds (h.firstAvailable_mem hbefore).1
            omega

/-- **Any other refresh** falls back to 0 with a later segment held. -/
theorem refresh_breaks (h : t.Ok) (hbreaks : ¬ t.stream.KeepsFirstAvailable segmentsArray) :
    ¬ (t.refresh segmentsArray).stream.AtFirstHeld := by
  rw [keepsFirstAvailable_merge_iff h] at hbreaks
  obtain ⟨hovertaken, horigin⟩ := not_or.mp hbreaks
  obtain ⟨seg, hseg, hoffset⟩ : ∃ seg ∈ (t.stream.merge segmentsArray).segments,
      seg.byteOffset ≠ 0 := by simpa using horigin
  have hmerge := (merge_spec h segmentsArray).1
  have hne := List.ne_nil_of_mem hseg
  -- everything held is below the oldest sequence
  have hbelow : ∀ b ∈ (t.stream.merge segmentsArray).segments,
      0 ≤ b.sequence ∧ b.sequence < t.stream.oldestAfter segmentsArray := by
    intro b hb
    have hmem := hmerge.held.subset (List.mem_map_of_mem hb)
    have hnonneg := hmerge.nonneg _ hmem
    have hle := hmerge.le_lastKnownSequence hmem
    omega
  have hprune : (t.refresh segmentsArray).stream.segments =
      [(t.stream.merge segmentsArray).segments.getLast hne] :=
    pruneRolledOffLiveSegments_of_below hne hbelow
  have hnone : (t.refresh segmentsArray).stream.firstAvailable = none := by
    rw [(ok_refresh h segmentsArray).firstAvailable_eq_none_iff]
    exact fun b hb => (hbelow b (mem_merge_of_mem_refresh hb)).2
  -- and the one segment that is kept lies behind the origin
  have hlast := hmerge.pairwise_byteOffset.rel_getLast_of_rel_getLast_getLast hseg (Int.le_refl _)
  have hnonneg := (hmerge.offsets_bounds hseg).1.1
  intro hfirst
  have hle := (hfirst _ (by rw [hprune]; rfl)).1
  rw [(offsets_of_none hnone).1] at hle
  omega

end Refresh

/-! ## the open and the runs -/

/-- An open holds nothing below the oldest sequence its manifest lists. -/
theorem opened_atFirstHeld (manifest : List Json) : (opened manifest).stream.AtFirstHeld := by
  have hok := ok_opened manifest
  cases hfound : (opened manifest).stream.firstAvailable with
  | some a => exact atFirstHeld_of_some hok hfound
  | none =>
      intro first hfirst
      have hmem := List.mem_of_mem_head? hfirst
      have hbelow := hok.firstAvailable_eq_none_iff.mp hfound first hmem
      have hmerged : first.sequence ∈ (parseNewLiveManifestSegments manifest (-1)).map (·.sequence) :=
        hok.held.subset (List.mem_map_of_mem hmem)
      obtain ⟨entry, hentry, heq⟩ := List.mem_map.mp hmerged
      obtain ⟨hwell, -, seg, hseg, hlisted⟩ :=
        (parseNewLiveManifestSegments_spec manifest (-1)).1 entry hentry
      have hnonneg := hwell.sequence_nonneg
      have hle := oldestLiveManifestSequence_le hseg (by omega)
      have holdest : (opened manifest).stream.oldestAvailableSequence = oldestAfter {} manifest :=
        oldestAvailableSequence_trim ..
      rw [holdest, oldestAfter] at hbelow
      split at hbelow <;> simp only at * <;> omega

/-- A refresh as a step of a run. -/
def step (t : LiveSession) (segmentsArray : List Json) : Option LiveSession :=
  some (t.refresh segmentsArray)

theorem run_step (t : LiveSession) (manifests : List (List Json)) :
    run step t manifests = some (t.refreshes manifests) := by
  induction manifests generalizing t with
  | nil => rfl
  | cons manifest manifests ih => exact ih (t.refresh manifest)

/-- Every refresh of the run keeps the first available position. -/
abbrev KeepsFirstAvailable (t : LiveSession) (manifests : List (List Json)) : Prop :=
  Meets step (fun t segmentsArray => t.stream.KeepsFirstAvailable segmentsArray) t manifests

theorem refreshes_keeps {t : LiveSession} (h : t.Ok) {manifests : List (List Json)}
    (hkeeps : t.KeepsFirstAvailable manifests) : t.stream.NotPast (t.refreshes manifests).stream := by
  induction manifests generalizing t with
  | nil => exact ⟨Int.le_refl _, Int.le_refl _⟩
  | cons manifest manifests ih =>
      have hstep := (refresh_keeps h hkeeps.1).1
      exact hstep.trans (ih (ok_refresh h manifest) (hkeeps.2 _ rfl))

/-- The refreshes keep the first available position exactly when it is at or
behind the first held segment all along. -/
theorem keepsFirstAvailable_iff {t : LiveSession} (h : t.Ok) (hfirst : t.stream.AtFirstHeld)
    (manifests : List (List Json)) :
    t.KeepsFirstAvailable manifests ↔
      ∀ before, before <+: manifests → (t.refreshes before).stream.AtFirstHeld := by
  have hiff := @meets_iff _ _ step
    (fun t segmentsArray => t.stream.KeepsFirstAvailable segmentsArray)
    (fun t => t.Ok ∧ t.stream.AtFirstHeld)
    (fun {t m t'} hI hkeeps hstep => by
      obtain rfl := Option.some.inj hstep
      exact ⟨ok_refresh hI.1 m, (refresh_keeps hI.1 hkeeps).2⟩)
    (fun {t m t'} hI hbreaks hstep hI' => by
      obtain rfl := Option.some.inj hstep
      exact refresh_breaks hI.1 hbreaks hI'.2)
    t _ manifests ⟨h, hfirst⟩ (run_step t manifests)
  rw [KeepsFirstAvailable, hiff]
  constructor
  · intro hall before hbefore
    exact (hall before _ hbefore (run_step t before)).2
  · intro hall before t' hbefore hrun
    obtain rfl := Option.some.inj ((run_step t before).symm.trans hrun)
    exact ⟨(refreshes_spec h before).1, hall before hbefore⟩

end LiveSession

/-- **The first available position** moves forward only, and is not before the
first held segment, through a run of refreshes exactly when each of them keeps
it. -/
theorem first_available_forward_iff (manifest : List Json) (manifests : List (List Json)) :
    (LiveSession.opened manifest).KeepsFirstAvailable manifests ↔
      ∀ before after, before ++ after <+: manifests →
        let t := (LiveSession.opened manifest).refreshes before
        let t' := t.refreshes after
        t.stream.NotPast t'.stream ∧ t'.stream.AtFirstHeld := by
  have hok := LiveSession.ok_opened manifest
  have hiff := LiveSession.keepsFirstAvailable_iff hok (LiveSession.opened_atFirstHeld manifest)
    manifests
  constructor
  · intro hkeeps before after hprefix t t'
    have ht' : t' = (LiveSession.opened manifest).refreshes (before ++ after) :=
      (List.foldl_append ..).symm
    refine ⟨?_, ht' ▸ hiff.mp hkeeps (before ++ after) hprefix⟩
    obtain ⟨rest, rfl⟩ := hprefix
    rw [List.append_assoc] at hkeeps
    have hafter := (hkeeps.append (LiveSession.run_step _ before)).2
    exact LiveSession.refreshes_keeps (LiveSession.refreshes_spec hok before).1
      (hafter.append (LiveSession.run_step t after)).1
  · intro hall
    refine hiff.mpr fun before hbefore => ?_
    exact (hall before [] (by rwa [List.append_nil])).2

/-- An entry of a manifest, two seconds long. -/
def manifestEntry (sequence byteSize : Nat) : Json :=
  .object [("sequence", .numberUnsigned sequence), ("filename", .string "live.ts"),
    ("byte_size", .numberUnsigned byteSize), ("duration_ms", .numberUnsigned 2000)]

/-- An open on the segments 1 to 3, and a refresh that lists 2 to 4. -/
def refreshedSession : LiveSession :=
  (LiveSession.opened [manifestEntry 1 100, manifestEntry 2 100, manifestEntry 3 100]).refreshes
    [[manifestEntry 2 100, manifestEntry 3 100, manifestEntry 4 100]]

/-- When the manifest then lists segment 10 alone, and as empty, the first
available position falls from 100 to 0, and what is held starts at 300. -/
theorem first_available_falls_back :
    let s := refreshedSession.stream
    let next := (refreshedSession.refreshes [[manifestEntry 10 0]]).stream
    ¬ s.NotPast next ∧ ¬ next.AtFirstHeld ∧
      (s.firstAvailableLiveByteOffset, s.getLiveTimeshiftStreamBeginMs) = (100, 2000) ∧
      (next.firstAvailableLiveByteOffset, next.getLiveTimeshiftStreamBeginMs) = (0, 0) ∧
      next.segments.map (·.byteOffset) = [300] := by
  decide

end DispatcharrPvr
