import DispatcharrPvr.Lib.Layout
import DispatcharrPvr.LiveTimeshift

/-!
# LiveTimeshift.AddressSpace

What holds of the address space after any refreshes.  A `LiveSession` carries,
beside the stream, every sequence number that was merged into it, trimmed and
rolled-off ones included; `Held` is the invariant of both.
-/

namespace DispatcharrPvr

open Layout

/-- A stream and the sequence numbers merged into it so far. -/
structure LiveSession where
  stream : LiveTimeshiftStreamState := {}
  merged : List Int := []

namespace LiveSession

/-- A refresh, and what it merges. -/
def refresh (t : LiveSession) (segmentsArray : List Json) : LiveSession where
  stream := t.stream.refreshLiveManifest segmentsArray
  merged := t.merged ++
    (parseNewLiveManifestSegments segmentsArray t.stream.lastKnownSequence).map (·.sequence)

/-- An open on a manifest. -/
def opened (segmentsArray : List Json) : LiveSession where
  stream := .openLiveTimeshiftStream segmentsArray
  merged := (parseNewLiveManifestSegments segmentsArray (-1)).map (·.sequence)

/-- The session after refreshes. -/
def refreshes (t : LiveSession) (manifests : List (List Json)) : LiveSession :=
  manifests.foldl refresh t

end LiveSession

/-- Segments in a row, from `lo` on. -/
abbrev InRow (lo : Int) (segments : List LiveTimeshiftSegmentInfo) (hi : Int) : Prop :=
  LaidOut LiveTimeshiftSegmentInfo.byteOffset LiveTimeshiftSegmentInfo.byteSize lo segments hi

/-- The invariant of a stream and of what was merged into it. -/
structure Held (s : LiveTimeshiftStreamState) (merged : List Int) : Prop where
  inRow : ∃ lo, 0 ≤ lo ∧ InRow lo s.segments s.totalBytes
  /-- What is held is the end of what was merged, -/
  held : s.segments.map (·.sequence) <:+ merged
  /-- and never nothing once something was. -/
  last_held : merged ≠ [] → s.segments ≠ []
  ascending : merged.Pairwise (· < ·)
  nonneg : ∀ sequence ∈ merged, 0 ≤ sequence
  times : s.segments.Pairwise fun a b => a.timeOffsetMs ≤ b.timeOffsetMs
  times_le : ∀ a ∈ s.segments, 0 ≤ a.timeOffsetMs ∧ a.timeOffsetMs ≤ s.totalDurationMs
  duration_nonneg : 0 ≤ s.totalDurationMs
  /-- The origin of the bytes is the origin of the time. -/
  origin : ∀ a ∈ s.segments, a.byteOffset = 0 → a.timeOffsetMs = 0
  origin_total : s.totalBytes = 0 → s.totalDurationMs = 0
  bytes_le : s.totalBytes ≤ maxSegmentByteSize * merged.length
  duration_le : s.totalDurationMs ≤ maxSegmentDurationMs * merged.length

theorem held_init : Held {} [] where
  inRow := ⟨0, Int.le_refl _, rfl⟩
  held := List.suffix_rfl
  last_held h := absurd rfl h
  ascending := List.Pairwise.nil
  nonneg _ h := absurd h List.not_mem_nil
  times := List.Pairwise.nil
  times_le _ h := absurd h List.not_mem_nil
  duration_nonneg := Int.le_refl _
  origin _ h := absurd h List.not_mem_nil
  origin_total _ := rfl
  bytes_le := by decide
  duration_le := by decide

namespace Held

variable {s : LiveTimeshiftStreamState} {merged : List Int}

/-- The last known sequence is the last one merged. -/
theorem lastKnownSequence_eq (h : Held s merged) :
    s.lastKnownSequence = merged.getLast?.getD (-1) := by
  rw [LiveTimeshiftStreamState.lastKnownSequence, ← List.getLast?_map]
  obtain ⟨front, hfront⟩ := h.held
  cases hsegs : s.segments with
  | nil =>
      have hnone : merged = [] := Classical.byContradiction fun hne => h.last_held hne hsegs
      rw [hnone]
      rfl
  | cons a rest =>
      rw [← hfront, hsegs, List.getLast?_append, List.getLast?_eq_some_getLast (by simp)]
      rfl

/-- Nothing merged is newer than the last known sequence. -/
theorem le_lastKnownSequence (h : Held s merged) {sequence : Int} (hmem : sequence ∈ merged) :
    sequence ≤ s.lastKnownSequence := by
  rw [h.lastKnownSequence_eq]
  cases hlast : merged.getLast? with
  | none =>
      rw [List.getLast?_eq_none_iff.mp hlast] at hmem
      exact absurd hmem List.not_mem_nil
  | some last =>
      obtain ⟨front, rfl⟩ := List.getLast?_eq_some_iff.mp hlast
      rcases List.mem_append.mp hmem with hmem | hmem
      · have := (List.pairwise_append.mp h.ascending).2.2 sequence hmem last (by simp)
        show sequence ≤ last
        omega
      · rw [List.mem_singleton.mp hmem]
        exact Int.le_refl _

theorem totalBytes_nonneg (h : Held s merged) : 0 ≤ s.totalBytes := by
  obtain ⟨lo, hlo, hrow⟩ := h.inRow
  have := hrow.le
  omega

/-! ## the operations -/

/-- A new, well-formed entry is appended at the end. -/
theorem appendEntry (h : Held s merged) {entry : LiveManifestSegmentEntry}
    (hwell : WellFormed entry) (hnew : s.lastKnownSequence < entry.sequence) :
    Held (s.appendEntry entry) (merged ++ [entry.sequence]) where
  inRow := by
    obtain ⟨lo, hlo, hrow⟩ := h.inRow
    exact ⟨lo, hlo, hrow.concat rfl hwell.byteSize_pos⟩
  held := by
    obtain ⟨front, hfront⟩ := h.held
    refine ⟨front, ?_⟩
    show front ++ (s.appendEntry entry).segments.map (·.sequence) = merged ++ [entry.sequence]
    rw [LiveTimeshiftStreamState.appendEntry, List.map_append, ← List.append_assoc, hfront]
    rfl
  last_held _ := by simp [LiveTimeshiftStreamState.appendEntry]
  ascending := by
    rw [List.pairwise_append]
    refine ⟨h.ascending, List.pairwise_singleton _ _, fun a ha b hb => ?_⟩
    have := h.le_lastKnownSequence ha
    rw [List.mem_singleton.mp hb]
    omega
  nonneg sequence hmem := by
    rcases List.mem_append.mp hmem with hmem | hmem
    · exact h.nonneg sequence hmem
    · rw [List.mem_singleton.mp hmem]
      exact hwell.sequence_nonneg
  times := by
    show (s.segments ++ [_]).Pairwise _
    rw [List.pairwise_append]
    refine ⟨h.times, List.pairwise_singleton _ _, fun a ha b hb => ?_⟩
    rw [List.mem_singleton.mp hb]
    exact (h.times_le a ha).2
  times_le a ha := by
    have htotal : (s.appendEntry entry).totalDurationMs = s.totalDurationMs + entry.durationMs := rfl
    have hduration := hwell.durationMs_nonneg
    rcases List.mem_append.mp ha with ha | ha
    · have := h.times_le a ha
      omega
    · have hnonneg := h.duration_nonneg
      rw [List.mem_singleton.mp ha]
      show 0 ≤ s.totalDurationMs ∧ s.totalDurationMs ≤ _
      omega
  duration_nonneg := Int.add_nonneg h.duration_nonneg hwell.durationMs_nonneg
  origin a ha hzero := by
    rcases List.mem_append.mp ha with ha | ha
    · exact h.origin a ha hzero
    · rw [List.mem_singleton.mp ha] at hzero ⊢
      exact h.origin_total hzero
  origin_total hzero := by
    have htotal : s.totalBytes + entry.byteSize = 0 := hzero
    have hnonneg := h.totalBytes_nonneg
    have hpos := hwell.byteSize_pos
    omega
  bytes_le := by
    have htotal : (s.appendEntry entry).totalBytes = s.totalBytes + entry.byteSize := rfl
    have hle := h.bytes_le
    have hsize := hwell.byteSize_le
    rw [htotal, List.length_append, List.length_singleton, Int.natCast_add, Int.mul_add]
    omega
  duration_le := by
    have htotal : (s.appendEntry entry).totalDurationMs = s.totalDurationMs + entry.durationMs := rfl
    have hle := h.duration_le
    have hsize := hwell.durationMs_le
    rw [htotal, List.length_append, List.length_singleton, Int.natCast_add, Int.mul_add]
    omega

/-- Segments are dropped from the front, never the last one. -/
theorem drop (h : Held s merged) (oldestAvailableSequence : Int) {n : Nat}
    (hn : s.segments ≠ [] → n < s.segments.length) :
    Held { s with oldestAvailableSequence, segments := s.segments.drop n } merged where
  inRow := by
    obtain ⟨lo, hlo, hrow⟩ := h.inRow
    obtain ⟨lo', hle, hdrop⟩ := hrow.drop n
    exact ⟨lo', by omega, hdrop⟩
  held := by
    rw [List.map_drop]
    exact (List.drop_suffix n _).trans h.held
  last_held hne := by
    have := hn (h.last_held hne)
    rw [← List.length_pos_iff, List.length_drop]
    omega
  ascending := h.ascending
  nonneg := h.nonneg
  times := h.times.sublist (List.drop_sublist n _)
  times_le a ha := h.times_le a (List.mem_of_mem_drop ha)
  duration_nonneg := h.duration_nonneg
  origin a ha := h.origin a (List.mem_of_mem_drop ha)
  origin_total := h.origin_total
  bytes_le := h.bytes_le
  duration_le := h.duration_le

end Held

/-! ## a refresh -/

/-- What the merge loop does: the entries are held behind what was, at offsets
from the totals on. -/
theorem foldl_appendEntry {s : LiveTimeshiftStreamState} {merged : List Int} (h : Held s merged)
    (entries : List LiveManifestSegmentEntry)
    (hentries : ∀ entry ∈ entries, WellFormed entry ∧ s.lastKnownSequence < entry.sequence)
    (hasc : entries.Pairwise fun a b => a.sequence < b.sequence) :
    Held (entries.foldl .appendEntry s) (merged ++ entries.map (·.sequence)) ∧
      (entries.foldl .appendEntry s).oldestAvailableSequence = s.oldestAvailableSequence ∧
      ∃ news, (entries.foldl .appendEntry s).segments = s.segments ++ news ∧
        news.map (·.sequence) = entries.map (·.sequence) ∧
        ∀ b ∈ news, s.totalBytes ≤ b.byteOffset ∧ s.totalDurationMs ≤ b.timeOffsetMs := by
  induction entries generalizing s merged with
  | nil => exact ⟨by simpa using h, rfl, [], by simp⟩
  | cons entry entries ih =>
      obtain ⟨hwell, hnew⟩ := hentries entry (List.mem_cons_self ..)
      have hnext := h.appendEntry hwell hnew
      have hknown : (s.appendEntry entry).lastKnownSequence = entry.sequence := by
        rw [hnext.lastKnownSequence_eq, List.getLast?_concat]
        rfl
      obtain ⟨hfirst, hasc⟩ := List.pairwise_cons.mp hasc
      obtain ⟨hheld, holdest, news, hsegs, hseqs, hoffsets⟩ := ih hnext (fun e he => by
        rw [hknown]
        exact ⟨(hentries e (List.mem_cons_of_mem _ he)).1, hfirst e he⟩) hasc
      have hbytes : (s.appendEntry entry).totalBytes = s.totalBytes + entry.byteSize := rfl
      have hduration : (s.appendEntry entry).totalDurationMs =
        s.totalDurationMs + entry.durationMs := rfl
      have hpos := hwell.byteSize_pos
      have hnonneg := hwell.durationMs_nonneg
      refine ⟨by simpa using hheld, holdest,
        .ofEntry entry ⟨s.totalBytes, s.totalDurationMs⟩ :: news, ?_, ?_, ?_⟩
      · rw [List.foldl_cons, hsegs, LiveTimeshiftStreamState.appendEntry, List.append_assoc]
        rfl
      · rw [List.map_cons, List.map_cons, hseqs]
        rfl
      · intro b hb
        rcases List.mem_cons.mp hb with rfl | hb
        · exact ⟨Int.le_refl _, Int.le_refl _⟩
        · have := hoffsets b hb
          omega

/-- Pruning drops from the front, never the last one. -/
theorem pruneRolledOffLiveSegments_eq (segments : List LiveTimeshiftSegmentInfo) (oldest : Int) :
    ∃ n, pruneRolledOffLiveSegments segments oldest = segments.drop n ∧
      (segments ≠ [] → n < segments.length) := by
  rw [pruneRolledOffLiveSegments]
  split
  · exact ⟨0, rfl, List.length_pos_iff.mpr⟩
  · refine ⟨_, rfl, fun hne => ?_⟩
    have := List.length_pos_iff.mpr hne
    omega

namespace LiveSession

/-- The invariant of a session. -/
def Ok (t : LiveSession) : Prop := Held t.stream t.merged

/-- The merge of a refresh: the new entries behind what was held. -/
theorem merge_spec {t : LiveSession} (h : t.Ok) (segmentsArray : List Json) :
    Held (t.stream.merge segmentsArray) (t.refresh segmentsArray).merged ∧
      ∃ news, (t.stream.merge segmentsArray).segments = t.stream.segments ++ news ∧
        news.map (·.sequence) = (parseNewLiveManifestSegments segmentsArray
          t.stream.lastKnownSequence).map (·.sequence) ∧
        ∀ b ∈ news, t.stream.totalBytes ≤ b.byteOffset ∧
          t.stream.totalDurationMs ≤ b.timeOffsetMs := by
  have hspec := parseNewLiveManifestSegments_spec segmentsArray t.stream.lastKnownSequence
  obtain ⟨hheld, -, hnews⟩ := foldl_appendEntry h _
    (fun e he => ⟨(hspec.1 e he).1, (hspec.1 e he).2.1⟩) hspec.2
  exact ⟨hheld, hnews⟩

/-- The pruning of a refresh. -/
theorem segments_refresh (t : LiveSession) (segmentsArray : List Json) :
    ∃ n, (t.refresh segmentsArray).stream.segments =
        (t.stream.merge segmentsArray).segments.drop n ∧
      ((t.stream.merge segmentsArray).segments ≠ [] →
        n < (t.stream.merge segmentsArray).segments.length) :=
  pruneRolledOffLiveSegments_eq _ (t.stream.oldestAfter segmentsArray)

theorem ok_refresh {t : LiveSession} (h : t.Ok) (segmentsArray : List Json) :
    (t.refresh segmentsArray).Ok := by
  obtain ⟨n, hprune, hn⟩ := pruneRolledOffLiveSegments_eq
    (t.stream.merge segmentsArray).segments (t.stream.oldestAfter segmentsArray)
  show Held { t.stream.merge segmentsArray with
      oldestAvailableSequence := t.stream.oldestAfter segmentsArray
      segments := pruneRolledOffLiveSegments (t.stream.merge segmentsArray).segments
        (t.stream.oldestAfter segmentsArray) } _
  rw [hprune]
  exact (merge_spec h segmentsArray).1.drop (t.stream.oldestAfter segmentsArray) hn

/-! ## the open -/

end LiveSession

/-- The first held segment comes before every other in time. -/
theorem Held.timeOffsetMs_le {s : LiveTimeshiftStreamState} {merged : List Int} (h : Held s merged)
    {first : LiveTimeshiftSegmentInfo} {rest : List LiveTimeshiftSegmentInfo}
    (hsegs : s.segments = first :: rest) :
    ∀ a ∈ s.segments, first.timeOffsetMs ≤ a.timeOffsetMs := by
  intro a ha
  have htimes := h.times
  rw [hsegs] at ha htimes
  rcases List.mem_cons.mp ha with rfl | ha
  · exact Int.le_refl _
  · exact (List.pairwise_cons.mp htimes).1 a ha

/-- The origin is moved to the first held segment. -/
theorem Held.rebase {s : LiveTimeshiftStreamState} {merged : List Int} (h : Held s merged)
    {first : LiveTimeshiftSegmentInfo} {rest : List LiveTimeshiftSegmentInfo}
    (hsegs : s.segments = first :: rest) :
    Held
      { s with
        segments := s.segments.map fun seg => seg.rebase first.byteOffset first.timeOffsetMs
        totalBytes := s.totalBytes - first.byteOffset
        totalDurationMs := s.totalDurationMs - first.timeOffsetMs }
      merged := by
  obtain ⟨lo, hlo, hrow⟩ := h.inRow
  have hfirstMem : first ∈ s.segments := by rw [hsegs]; exact List.mem_cons_self ..
  have hbase : first.byteOffset = lo := by
    rw [InRow, hsegs] at hrow
    exact hrow.start_eq
  have hfirst := hrow.mem hfirstMem
  have hfirstTime := h.times_le first hfirstMem
  exact
    { inRow := by
        have hshift : InRow (lo - lo) _ (s.totalBytes - lo) := hrow.shift
          (f := fun seg => seg.rebase first.byteOffset first.timeOffsetMs)
          (d := lo) (fun a => by rw [← hbase]; rfl) (fun a => rfl)
        rw [Int.sub_self, ← hbase] at hshift
        exact ⟨0, Int.le_refl _, hshift⟩
      held := by
        rw [List.map_map]
        exact h.held
      last_held := fun _ => by simp [hsegs]
      ascending := h.ascending
      nonneg := h.nonneg
      times := by
        rw [List.pairwise_map]
        exact h.times.imp fun hle => Int.sub_le_sub_right hle _
      times_le := fun a ha => by
        obtain ⟨b, hb, rfl⟩ := List.mem_map.mp ha
        have htime := h.times_le b hb
        have hle := h.timeOffsetMs_le hsegs b hb
        show 0 ≤ b.timeOffsetMs - first.timeOffsetMs ∧
          b.timeOffsetMs - first.timeOffsetMs ≤ s.totalDurationMs - first.timeOffsetMs
        omega
      duration_nonneg := Int.sub_nonneg_of_le hfirstTime.2
      origin := fun a ha hzero => by
        obtain ⟨b, hb, rfl⟩ := List.mem_map.mp ha
        have hstart : b.byteOffset - first.byteOffset = 0 := hzero
        have hsize := (hrow.mem hb).2.1
        -- only the first segment starts at the new origin
        have hposb : contains LiveTimeshiftSegmentInfo.byteOffset
            LiveTimeshiftSegmentInfo.byteSize lo b = true := contains_iff.mpr (by omega)
        obtain rfl : b = first :=
          hrow.eq_of_contains hb hfirstMem hposb (contains_iff.mpr (by omega))
        exact Int.sub_self _
      origin_total := fun hzero => by
        have hbytes : s.totalBytes - first.byteOffset = 0 := hzero
        omega
      bytes_le := by
        have hle := h.bytes_le
        show s.totalBytes - first.byteOffset ≤ _
        omega
      duration_le := by
        have hle := h.duration_le
        show s.totalDurationMs - first.timeOffsetMs ≤ _
        omega }

/-- **The trim** of an open keeps the last segments, with the first of them at
the origin. -/
theorem Held.trim {s : LiveTimeshiftStreamState} {merged : List Int} (h : Held s merged)
    {marginSegments : Nat} (hmargin : 0 < marginSegments) :
    Held (trimToTrailingLiveEdgeMargin s marginSegments) merged := by
  rw [trimToTrailingLiveEdgeMargin]
  split
  · exact h
  · next hlong =>
      rw [if_neg (by omega)]
      generalize hn : s.segments.length - marginSegments = n
      have hlt : n < s.segments.length := by omega
      simp only [List.getElem?_eq_getElem hlt]
      have hdrop := h.drop s.oldestAvailableSequence (fun _ => hlt)
      exact hdrop.rebase (List.drop_eq_getElem_cons hlt)

namespace LiveSession

theorem ok_opened (segmentsArray : List Json) : (opened segmentsArray).Ok := by
  have hrefresh := @ok_refresh {} held_init segmentsArray
  exact hrefresh.trim (by decide)

/-! ## runs -/

/-- What a later session keeps of an earlier one. -/
structure Extends (t t' : LiveSession) : Prop where
  merged : t.merged <+: t'.merged
  /-- A segment that is held later was held before, or is newer. -/
  segments : ∀ b ∈ t'.stream.segments, b ∈ t.stream.segments ∨
    t.stream.lastKnownSequence < b.sequence
  lastKnownSequence : t.stream.lastKnownSequence ≤ t'.stream.lastKnownSequence

theorem Extends.refl (t : LiveSession) : Extends t t where
  merged := List.prefix_rfl
  segments _ hb := .inl hb
  lastKnownSequence := Int.le_refl _

theorem Extends.trans {t t' t'' : LiveSession} (h : Extends t t') (h' : Extends t' t'') :
    Extends t t'' where
  merged := h.merged.trans h'.merged
  segments b hb := by
    rcases h'.segments b hb with hb | hnew
    · exact h.segments b hb
    · have := h.lastKnownSequence
      exact .inr (by omega)
  lastKnownSequence := Int.le_trans h.lastKnownSequence h'.lastKnownSequence

theorem lastKnownSequence_le {t t' : LiveSession} (h : t.Ok) (h' : t'.Ok)
    (hmerged : t.merged <+: t'.merged) :
    t.stream.lastKnownSequence ≤ t'.stream.lastKnownSequence := by
  rw [h.lastKnownSequence_eq]
  cases hlast : t.merged.getLast? with
  | none =>
      rw [h'.lastKnownSequence_eq]
      cases hlast' : t'.merged.getLast? with
      | none => exact Int.le_refl _
      | some last =>
          have := h'.nonneg last (List.mem_of_getLast? hlast')
          show -1 ≤ last
          omega
  | some last => exact h'.le_lastKnownSequence (hmerged.subset (List.mem_of_getLast? hlast))

theorem extends_refresh {t : LiveSession} (h : t.Ok) (segmentsArray : List Json) :
    Extends t (t.refresh segmentsArray) := by
  have hok := ok_refresh h segmentsArray
  obtain ⟨-, news, hmerge, hseqs, -⟩ := merge_spec h segmentsArray
  obtain ⟨n, hsegs, -⟩ := t.segments_refresh segmentsArray
  have hmerged : t.merged <+: (t.refresh segmentsArray).merged := List.prefix_append _ _
  refine ⟨hmerged, fun b hb => ?_, lastKnownSequence_le h hok hmerged⟩
  rw [hsegs, hmerge] at hb
  rcases List.mem_append.mp (List.mem_of_mem_drop hb) with hb | hb
  · exact .inl hb
  · have hseq : b.sequence ∈ (parseNewLiveManifestSegments segmentsArray
        t.stream.lastKnownSequence).map (·.sequence) := hseqs ▸ List.mem_map_of_mem hb
    obtain ⟨entry, hentry, heq⟩ := List.mem_map.mp hseq
    have hnew := ((parseNewLiveManifestSegments_spec segmentsArray
      t.stream.lastKnownSequence).1 entry hentry).2.1
    exact .inr (by omega)

theorem refreshes_spec {t : LiveSession} (h : t.Ok) (manifests : List (List Json)) :
    (t.refreshes manifests).Ok ∧ Extends t (t.refreshes manifests) := by
  induction manifests generalizing t with
  | nil => exact ⟨h, .refl t⟩
  | cons manifest manifests ih =>
      have hstep := ok_refresh h manifest
      obtain ⟨hok, hextends⟩ := ih hstep
      exact ⟨hok, (extends_refresh h manifest).trans hextends⟩

/-- Sequence numbers tell the held segments apart. -/
theorem eq_of_sequence_eq {t : LiveSession} (h : t.Ok) {a b : LiveTimeshiftSegmentInfo}
    (ha : a ∈ t.stream.segments) (hb : b ∈ t.stream.segments) (heq : a.sequence = b.sequence) :
    a = b := by
  have hasc : (t.stream.segments.map (·.sequence)).Pairwise (· < ·) :=
    h.ascending.sublist h.held.sublist
  rw [List.pairwise_map] at hasc
  obtain ⟨i, hi, rfl⟩ := List.getElem_of_mem ha
  obtain ⟨j, hj, rfl⟩ := List.getElem_of_mem hb
  rw [List.pairwise_iff_getElem] at hasc
  rcases Nat.lt_trichotomy i j with hij | hij | hij
  · have := hasc i j hi hj hij
    omega
  · subst hij
    rfl
  · have := hasc j i hj hi hij
    omega

end LiveSession

/-! ## the address space -/

/-- What a reader of the address space relies on. -/
structure AddressSpace (s : LiveTimeshiftStreamState) : Prop where
  ascending : s.segments.Pairwise fun a b => a.sequence < b.sequence
  byteSize_pos : ∀ a ∈ s.segments, 0 < a.byteSize
  /-- Each segment starts exactly where the one before it ends, -/
  contiguous : ∀ (i : Nat) (a b : LiveTimeshiftSegmentInfo), s.segments[i]? = some a →
    s.segments[i + 1]? = some b → b.byteOffset = a.byteOffset + a.byteSize
  /-- and the last one ends at the total. -/
  ends : ∀ a, s.segments.getLast? = some a → a.byteOffset + a.byteSize = s.totalBytes
  times : s.segments.Pairwise fun a b => a.timeOffsetMs ≤ b.timeOffsetMs
  /-- A position from the first held segment up to the total is found in the
  one segment that contains it, any other in none. -/
  found : ∀ first, s.segments.head? = some first → ∀ position,
    (first.byteOffset ≤ position ∧ position < s.totalBytes →
      ∃ seg ∈ s.segments, findSegmentContainingPosition position s.segments = some seg ∧
        (seg.byteOffset ≤ position ∧ position < seg.byteOffset + seg.byteSize) ∧
        ∀ other ∈ s.segments, other.byteOffset ≤ position →
          position < other.byteOffset + other.byteSize → other = seg) ∧
    (¬ (first.byteOffset ≤ position ∧ position < s.totalBytes) →
      findSegmentContainingPosition position s.segments = none)
  found_none : s.segments = [] → ∀ position,
    findSegmentContainingPosition position s.segments = none

theorem Held.addressSpace {s : LiveTimeshiftStreamState} {merged : List Int} (h : Held s merged) :
    AddressSpace s := by
  obtain ⟨lo, -, hrow⟩ := h.inRow
  have hasc := h.ascending.sublist h.held.sublist
  rw [List.pairwise_map] at hasc
  refine ⟨hasc, fun a ha => (hrow.mem ha).2.1, fun i a b ha hb => hrow.next ha hb,
    fun a ha => hrow.getLast ha, h.times, fun first hfirst position => ?_, fun hnil position => ?_⟩
  · have hlo : first.byteOffset = lo := by
      obtain ⟨rest, hsegs⟩ := List.head?_eq_some_iff.mp hfirst
      have hrow := hrow
      rw [InRow, hsegs] at hrow
      exact hrow.start_eq
    rw [hlo]
    obtain ⟨hin, hout⟩ := hrow.find?_contains position
    refine ⟨fun hpos => ?_, hout⟩
    obtain ⟨seg, hseg, hfind, hcontains, hunique⟩ := hin hpos
    exact ⟨seg, hseg, hfind, contains_iff.mp hcontains,
      fun other hother hle hlt => hunique other hother (contains_iff.mpr ⟨hle, hlt⟩)⟩
  · rw [hnil]
    rfl

/-- **The live timeshift's address space**, after any open and refreshes: it
is in order, a segment that survives further refreshes is unchanged, and no
sequence number is merged twice. -/
theorem live_address_space (manifest : List Json) (before after : List (List Json)) :
    let t := (LiveSession.opened manifest).refreshes before
    let t' := t.refreshes after
    AddressSpace t.stream ∧
      (∀ a ∈ t.stream.segments, ∀ b ∈ t'.stream.segments, a.sequence = b.sequence → a = b) ∧
      t.stream.segments.map (·.sequence) <:+ t.merged ∧
      t.merged <+: t'.merged ∧ t'.merged.Pairwise (· < ·) := by
  intro t t'
  have hok : t.Ok := (LiveSession.refreshes_spec (LiveSession.ok_opened manifest) before).1
  obtain ⟨hok', hextends⟩ := LiveSession.refreshes_spec hok after
  refine ⟨hok.addressSpace, fun a ha b hb heq => ?_, hok.held, hextends.merged, hok'.ascending⟩
  rcases hextends.segments b hb with hb | hnew
  · exact LiveSession.eq_of_sequence_eq hok ha hb heq
  · have hseq : a.sequence ∈ t.merged := hok.held.subset (List.mem_map_of_mem ha)
    have := hok.le_lastKnownSequence hseq
    omega

/-- The totals stay within an `int64_t` for the first 2^23 segments merged. -/
theorem totals_le_int64Max (manifest : List Json) (manifests : List (List Json)) :
    let t := (LiveSession.opened manifest).refreshes manifests
    t.merged.length < 8388608 →
      t.stream.totalBytes ≤ int64Max ∧ t.stream.totalDurationMs ≤ int64Max := by
  intro t hfew
  have hok : t.Ok := (LiveSession.refreshes_spec (LiveSession.ok_opened manifest) manifests).1
  have hbytes := hok.bytes_le
  have hduration := hok.duration_le
  simp only [maxSegmentByteSize, maxSegmentDurationMs] at hbytes hduration
  have hmax : int64Max = 9223372036854775807 := rfl
  omega

end DispatcharrPvr
