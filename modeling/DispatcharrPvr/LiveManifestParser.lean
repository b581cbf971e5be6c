import DispatcharrPvr.JsonFieldUtil

/-!
# LiveManifestParser

The plugin's live manifest as the add-on reads it (`LiveManifestParser.cpp`):
the entries that are new and well formed, and the lowest sequence the manifest
still lists, well formed or not.
-/

namespace DispatcharrPvr

/-- `kMaxSegmentDurationMs`. -/
def maxSegmentDurationMs : Int := 86400000

/-- `kMaxSegmentByteSize`, 1 TiB. -/
def maxSegmentByteSize : Int := 1099511627776

/-- `LiveManifestSegmentEntry`. -/
structure LiveManifestSegmentEntry where
  sequence : Int := -1
  filename : String := ""
  byteSize : Int := 0
  durationMs : Int := 0
deriving DecidableEq, Repr

/-- The sequence an entry of the manifest names, -1 for none. -/
def segmentSequence (seg : Json) : Int := fieldOrInt64 seg "sequence" (-1)

/-- The loop of `ParseNewLiveManifestSegments`. -/
def parseNewLiveManifestSegments : List Json → Int → List LiveManifestSegmentEntry
  | [], _ => []
  | seg :: rest, newestKept =>
      let sequence := segmentSequence seg
      if sequence < 0 ∨ sequence ≤ newestKept then parseNewLiveManifestSegments rest newestKept
      else
        let filename := fieldOrString seg "filename" ""
        let byteSize := fieldOrInt64 seg "byte_size" 0
        let durationMs := fieldOrInt64 seg "duration_ms" 0
        -- a malformed entry is skipped and its sequence stays unknown
        if filename.isEmpty ∨ byteSize ≤ 0 then parseNewLiveManifestSegments rest newestKept
        else
          { sequence
            filename
            byteSize := if maxSegmentByteSize < byteSize then maxSegmentByteSize else byteSize
            durationMs :=
              if durationMs < 0 then 0
              else if maxSegmentDurationMs < durationMs then maxSegmentDurationMs
              else durationMs } :: parseNewLiveManifestSegments rest sequence

/-- The loop body of `OldestLiveManifestSequence`. -/
def olderSequence (oldest : Int) (seg : Json) : Int :=
  let sequence := segmentSequence seg
  if 0 ≤ sequence ∧ (oldest < 0 ∨ sequence < oldest) then sequence else oldest

/-- `OldestLiveManifestSequence`. -/
def oldestLiveManifestSequence (segmentsArray : List Json) : Int :=
  segmentsArray.foldl olderSequence (-1)

/-! ## what is kept -/

/-- An entry that the offsets can be computed from. -/
structure WellFormed (entry : LiveManifestSegmentEntry) : Prop where
  sequence_nonneg : 0 ≤ entry.sequence
  byteSize_pos : 0 < entry.byteSize
  byteSize_le : entry.byteSize ≤ maxSegmentByteSize
  durationMs_nonneg : 0 ≤ entry.durationMs
  durationMs_le : entry.durationMs ≤ maxSegmentDurationMs

theorem clampByteSize_bounds {byteSize : Int} (h : 0 < byteSize) :
    0 < (if maxSegmentByteSize < byteSize then maxSegmentByteSize else byteSize) ∧
      (if maxSegmentByteSize < byteSize then maxSegmentByteSize else byteSize) ≤
        maxSegmentByteSize := by
  have hmax : maxSegmentByteSize = 1099511627776 := rfl
  split <;> omega

theorem clampDurationMs_bounds (durationMs : Int) :
    0 ≤ (if durationMs < 0 then 0
        else if maxSegmentDurationMs < durationMs then maxSegmentDurationMs else durationMs) ∧
      (if durationMs < 0 then 0
        else if maxSegmentDurationMs < durationMs then maxSegmentDurationMs else durationMs) ≤
        maxSegmentDurationMs := by
  have hmax : maxSegmentDurationMs = 86400000 := rfl
  split
  · omega
  · split <;> omega

/-- Every kept entry is well formed, newer than what was known and listed in
the manifest, and each is newer than the one before it. -/
theorem parseNewLiveManifestSegments_spec (segmentsArray : List Json) (lastKnownSequence : Int) :
    let entries := parseNewLiveManifestSegments segmentsArray lastKnownSequence
    (∀ entry ∈ entries, WellFormed entry ∧ lastKnownSequence < entry.sequence ∧
        ∃ seg ∈ segmentsArray, segmentSequence seg = entry.sequence) ∧
      entries.Pairwise fun a b => a.sequence < b.sequence := by
  intro entries
  induction segmentsArray generalizing lastKnownSequence with
  | nil => exact ⟨fun _ h => absurd h List.not_mem_nil, List.Pairwise.nil⟩
  | cons seg rest ih =>
      have hskip := ih lastKnownSequence
      have hlisted : ∀ entry, (∃ s ∈ rest, segmentSequence s = entry) →
          ∃ s ∈ seg :: rest, segmentSequence s = entry := fun _ ⟨s, hs, heq⟩ =>
        ⟨s, List.mem_cons_of_mem _ hs, heq⟩
      simp only [entries, parseNewLiveManifestSegments]
      split
      · exact ⟨fun e he => ⟨(hskip.1 e he).1, (hskip.1 e he).2.1, hlisted _ (hskip.1 e he).2.2⟩,
          hskip.2⟩
      · next hnew =>
          split
          · exact ⟨fun e he => ⟨(hskip.1 e he).1, (hskip.1 e he).2.1, hlisted _ (hskip.1 e he).2.2⟩,
              hskip.2⟩
          · next hwell =>
              have hkept := ih (segmentSequence seg)
              refine ⟨fun e he => ?_, List.Pairwise.cons (fun e he => (hkept.1 e he).2.1) hkept.2⟩
              rcases List.mem_cons.mp he with rfl | he
              · rw [not_or, Int.not_lt, Int.not_le] at hnew
                rw [not_or, Int.not_le] at hwell
                have hbytes := clampByteSize_bounds hwell.2
                have hduration := clampDurationMs_bounds (fieldOrInt64 seg "duration_ms" 0)
                exact ⟨⟨hnew.1, hbytes.1, hbytes.2, hduration.1, hduration.2⟩, hnew.2, seg,
                  List.mem_cons_self .., rfl⟩
              · have hrest := hkept.1 e he
                exact ⟨hrest.1, by omega, hlisted _ hrest.2.2⟩

theorem olderSequence_spec (oldest : Int) (seg : Json) :
    (0 ≤ oldest → 0 ≤ olderSequence oldest seg ∧ olderSequence oldest seg ≤ oldest) ∧
      (0 ≤ segmentSequence seg →
        0 ≤ olderSequence oldest seg ∧ olderSequence oldest seg ≤ segmentSequence seg) := by
  simp only [olderSequence]
  split <;> omega

/-- The oldest sequence is no newer than any the manifest lists. -/
theorem oldestLiveManifestSequence_le {segmentsArray : List Json} {seg : Json}
    (hseg : seg ∈ segmentsArray) (hnonneg : 0 ≤ segmentSequence seg) :
    oldestLiveManifestSequence segmentsArray ≤ segmentSequence seg := by
  have hfold : ∀ (segs : List Json) (oldest : Int),
      (0 ≤ oldest → 0 ≤ segs.foldl olderSequence oldest ∧
        segs.foldl olderSequence oldest ≤ oldest) ∧
      ∀ s ∈ segs, 0 ≤ segmentSequence s → segs.foldl olderSequence oldest ≤ segmentSequence s := by
    intro segs
    induction segs with
    | nil => exact fun oldest => ⟨fun h => ⟨h, Int.le_refl _⟩, fun _ h => absurd h List.not_mem_nil⟩
    | cons s segs ih =>
        intro oldest
        have hstep := olderSequence_spec oldest s
        have hrest := ih (olderSequence oldest s)
        rw [List.foldl_cons]
        refine ⟨fun h => ?_, fun t ht hpos => ?_⟩
        · have := hrest.1 (hstep.1 h).1
          omega
        · rcases List.mem_cons.mp ht with rfl | ht
          · have := hrest.1 (hstep.2 hpos).1
            omega
          · exact hrest.2 t ht hpos
  exact (hfold segmentsArray (-1)).2 seg hseg hnonneg

end DispatcharrPvr
