import DispatcharrPvr.Int64Overflow
import DispatcharrPvr.Lib.FirstMax
import Mathlib.Data.List.Pairwise

/-!
# EpgProgramMatch

Which programme of the guide a recording is of
(`FindEpgEntryIndexCoveringRecording`): the one it overlaps most, when that is
at least four fifths of the recording.

A difference the source takes in 64 bits is `subInt64`, so a run that overflows
has no result.  What an entry holds besides its times is a parameter.
-/

namespace DispatcharrPvr

variable {Programme : Type*}

/-- `EpgEntry`. -/
structure EpgEntry (Programme : Type*) where
  programme : Programme
  startTime : Int
  endTime : Int
deriving DecidableEq, Repr

/-- `CoversEnough`. -/
def coversEnough (overlap duration : Int) : Option Bool :=
  (subInt64 duration (duration.tdiv 5)).map fun least => least ≤ overlap

/-- `bestIdx` and `bestOverlap`. -/
structure BestOverlap where
  idx : Int := -1
  overlap : Int := 0

/-- The body of the loop, at an entry and its index. -/
def BestOverlap.look (recStart recEnd : Int) (best : BestOverlap)
    (entry : EpgEntry Programme × Nat) :
    Option BestOverlap :=
  -- no overlap at all
  if entry.1.startTime ≥ recEnd ∨ entry.1.endTime ≤ recStart then some best
  else
    let overlapStart := max recStart entry.1.startTime
    let overlapEnd := min recEnd entry.1.endTime
    (subInt64 overlapEnd overlapStart).map fun overlap =>
      if overlap > best.overlap then { idx := entry.2, overlap } else best

/-- `FindEpgEntryIndexCoveringRecording`. -/
def findEpgEntryIndexCoveringRecording (entries : List (EpgEntry Programme))
    (recStart recEnd : Int) :
    Option Int :=
  (subInt64 recEnd recStart).bind fun recDuration =>
    if recDuration ≤ 0 then some (-1)
    else
      (entries.zipIdx.foldlM (BestOverlap.look recStart recEnd) {}).bind fun best =>
        if best.idx ≥ 0 then
          (coversEnough best.overlap recDuration).map fun enough => if enough then best.idx else -1
        else some (-1)

/-! ## the overlap -/

/-- How long an entry and the recording overlap; not positive where they do not. -/
def EpgEntry.overlap (recStart recEnd : Int) (entry : EpgEntry Programme) : Int :=
  min recEnd entry.endTime - max recStart entry.startTime

/-- Whether they do. -/
def EpgEntry.overlaps (recStart recEnd : Int) (entry : EpgEntry Programme) : Bool :=
  0 < entry.overlap recStart recEnd

/-- Where the source gets to the subtraction, its result is between the opposite
of the recording's duration and the duration itself, so it fits when that does. -/
theorem subInt64_overlap {recStart recEnd : Int} (hpos : 0 < recEnd - recStart)
    (hfit : recEnd - recStart ≤ int64Max) {entry : EpgEntry Programme}
    (hsome : ¬ (entry.startTime ≥ recEnd ∨ entry.endTime ≤ recStart)) :
    subInt64 (min recEnd entry.endTime) (max recStart entry.startTime) =
      some (entry.overlap recStart recEnd) := by
  refine if_pos ?_
  unfold int64Lowest int64Max at *
  omega

/-- The integer test is the ratio. -/
theorem coversEnough_eq {overlap duration : Int} (hpos : 0 < duration)
    (hfit : duration ≤ int64Max) :
    coversEnough overlap duration = some (decide (4 * duration ≤ 5 * overlap)) := by
  have hdiv : duration.tdiv 5 = duration / 5 := Int.tdiv_eq_ediv_of_nonneg hpos.le
  have hsub : subInt64 duration (duration / 5) = some (duration - duration / 5) := by
    refine if_pos ?_
    unfold int64Lowest int64Max at *
    omega
  rw [coversEnough, hdiv, hsub, Option.map_some, Option.some.injEq, decide_eq_decide]
  omega

/-! ## the loop -/

open FirstMax

/-- What the loop has when the scan has found `found`. -/
def BestOverlap.of (recStart recEnd : Int) : Option (EpgEntry Programme × Nat) → BestOverlap
  | none => {}
  | some (entry, i) => { idx := i, overlap := entry.overlap recStart recEnd }

/-- The best entry so far: `firstMax` of the overlaps. -/
def mostOverlapping (recStart recEnd : Int) (entries : List (EpgEntry Programme)) :
    Option (EpgEntry Programme × Nat) :=
  firstMax (EpgEntry.overlaps recStart recEnd) (EpgEntry.overlap recStart recEnd) entries

/-- The loop keeps the first entry of greatest positive overlap. -/
theorem foldlM_look {recStart recEnd : Int} (hpos : 0 < recEnd - recStart)
    (hfit : recEnd - recStart ≤ int64Max) (entries : List (EpgEntry Programme)) :
    entries.zipIdx.foldlM (BestOverlap.look recStart recEnd) {} =
      some (.of recStart recEnd (mostOverlapping recStart recEnd entries)) := by
  induction entries using List.reverseRecOn with
  | nil => rfl
  | append_singleton entries entry ih =>
      have hpositive : ∀ best : EpgEntry Programme × Nat,
          mostOverlapping recStart recEnd entries = some best →
            0 < best.1.overlap recStart recEnd := by
        intro best hbest
        simpa [EpgEntry.overlaps] using (firstMax_eq_some_iff.mp hbest).qualifies
      rw [List.zipIdx_append, List.zipIdx_singleton, Nat.zero_add, List.foldlM_append, ih]
      simp only [Option.bind_eq_bind, Option.bind_some, List.foldlM_cons, List.foldlM_nil,
        BestOverlap.look, mostOverlapping, firstMax_concat]
      rw [mostOverlapping] at hpositive
      by_cases hnone : entry.startTime ≥ recEnd ∨ entry.endTime ≤ recStart
      · have hoverlap : entry.overlaps recStart recEnd = false := by
          refine decide_eq_false ?_
          unfold EpgEntry.overlap
          omega
        simp [hnone, hoverlap]
      · rw [if_neg hnone, subInt64_overlap hpos hfit hnone]
        cases hbest : firstMax (EpgEntry.overlaps recStart recEnd)
            (EpgEntry.overlap recStart recEnd) entries with
        | none =>
            by_cases hpos : 0 < entry.overlap recStart recEnd
            · simp [BestOverlap.of, EpgEntry.overlaps, hpos]
            · simp [BestOverlap.of, EpgEntry.overlaps, hpos]
        | some best =>
            have hbestPos := hpositive best hbest
            by_cases hpos : 0 < entry.overlap recStart recEnd
            · by_cases hless : best.1.overlap recStart recEnd < entry.overlap recStart recEnd
              · simp [BestOverlap.of, EpgEntry.overlaps, hpos, hless]
              · simp [BestOverlap.of, EpgEntry.overlaps, hpos, hless]
            · have hless : ¬ best.1.overlap recStart recEnd < entry.overlap recStart recEnd := by
                omega
              simp [BestOverlap.of, EpgEntry.overlaps, hpos, hless]

/-! ## the entry found -/

/-- The entry at `i` is the first whose positive overlap is the greatest there
is, and it covers four fifths of the recording. -/
structure CoversRecording (entries : List (EpgEntry Programme)) (recStart recEnd : Int) (i : Nat)
    (entry : EpgEntry Programme) : Prop where
  at_index : entries[i]? = some entry
  positive : 0 < entry.overlap recStart recEnd
  greatest : ∀ other ∈ entries, other.overlap recStart recEnd ≤ entry.overlap recStart recEnd
  first : ∀ j other, j < i → entries[j]? = some other →
    other.overlap recStart recEnd < entry.overlap recStart recEnd
  enough : 4 * (recEnd - recStart) ≤ 5 * entry.overlap recStart recEnd

theorem mostOverlapping_eq_some_iff {recStart recEnd : Int} {entries : List (EpgEntry Programme)}
    {entry : EpgEntry Programme} {i : Nat} :
    mostOverlapping recStart recEnd entries = some (entry, i) ∧
        4 * (recEnd - recStart) ≤ 5 * entry.overlap recStart recEnd ↔
      CoversRecording entries recStart recEnd i entry := by
  rw [mostOverlapping, firstMax_eq_some_iff]
  constructor
  · intro ⟨hmax, henough⟩
    have hpos : 0 < entry.overlap recStart recEnd := by
      simpa [EpgEntry.overlaps] using hmax.qualifies
    refine ⟨hmax.at_index, hpos, ?_, ?_, henough⟩
    · intro other hother
      by_cases hqualifies : other.overlaps recStart recEnd = true
      · exact hmax.greatest other hother hqualifies
      · simp [EpgEntry.overlaps] at hqualifies
        omega
    · intro j other hj hat
      by_cases hqualifies : other.overlaps recStart recEnd = true
      · exact hmax.first j other hj hat hqualifies
      · simp [EpgEntry.overlaps] at hqualifies
        omega
  · intro hcovers
    refine ⟨⟨hcovers.at_index, ?_, ?_, ?_⟩, hcovers.enough⟩
    · simpa [EpgEntry.overlaps] using hcovers.positive
    · intro other hother _
      exact hcovers.greatest other hother
    · intro j other hj hat _
      exact hcovers.first j other hj hat

/-- The search in one expression. -/
theorem findEpgEntryIndexCoveringRecording_eq {recStart recEnd : Int}
    (hfit : int64Lowest ≤ recEnd - recStart ∧ recEnd - recStart ≤ int64Max)
    (entries : List (EpgEntry Programme)) :
    findEpgEntryIndexCoveringRecording entries recStart recEnd =
      some (match mostOverlapping recStart recEnd entries with
        | none => -1
        | some (entry, i) =>
            if 0 < recEnd - recStart ∧
              4 * (recEnd - recStart) ≤ 5 * entry.overlap recStart recEnd then (i : Int)
            else -1) := by
  rw [findEpgEntryIndexCoveringRecording, subInt64, if_pos hfit, Option.bind_some]
  by_cases hpos : 0 < recEnd - recStart
  · rw [if_neg (by omega), foldlM_look hpos hfit.2, Option.bind_some]
    cases hbest : mostOverlapping recStart recEnd entries with
    | none => simp [BestOverlap.of]
    | some best =>
        simp only [BestOverlap.of, coversEnough_eq hpos hfit.2, Option.map_some,
          hpos, true_and]
        simp
  · rw [if_pos (by omega)]
    cases mostOverlapping recStart recEnd entries <;> simp only [hpos, false_and, if_false]

/-! ## the order of the entries -/

/-- The entry at the index found. -/
def entryCoveringRecording (entries : List (EpgEntry Programme)) (recStart recEnd : Int) :
    Option (EpgEntry Programme) :=
  (findEpgEntryIndexCoveringRecording entries recStart recEnd).bind fun idx =>
    if idx < 0 then none else entries[idx.toNat]?

/-- No instant lies in both; an empty or reversed entry has none. -/
def EpgEntry.Disjoint (a b : EpgEntry Programme) : Prop :=
  ∀ t, a.startTime ≤ t → t < a.endTime → b.startTime ≤ t → ¬ t < b.endTime

theorem EpgEntry.Disjoint.symm {a b : EpgEntry Programme} (h : a.Disjoint b) : b.Disjoint a :=
  fun t hb hb' ha ha' => h t ha ha' hb hb'

instance : Std.Symm (EpgEntry.Disjoint : EpgEntry Programme → EpgEntry Programme → Prop) :=
  ⟨fun _ _ h => h.symm⟩

/-- Two disjoint entries do not both cover four fifths of a recording. -/
theorem EpgEntry.Disjoint.not_enough {a b : EpgEntry Programme} (h : a.Disjoint b)
    {recStart recEnd : Int} (hpos : 0 < recEnd - recStart)
    (ha : 4 * (recEnd - recStart) ≤ 5 * a.overlap recStart recEnd) :
    ¬ 4 * (recEnd - recStart) ≤ 5 * b.overlap recStart recEnd := by
  intro hb
  have hcommon := h (max recStart (max a.startTime b.startTime))
  unfold EpgEntry.overlap at ha hb
  omega

theorem entryCoveringRecording_eq_some_iff {entries : List (EpgEntry Programme)}
    {recStart recEnd : Int}
    (hfit : int64Lowest ≤ recEnd - recStart ∧ recEnd - recStart ≤ int64Max)
    (hdisjoint : entries.Pairwise EpgEntry.Disjoint) {entry : EpgEntry Programme} :
    entryCoveringRecording entries recStart recEnd = some entry ↔
      0 < recEnd - recStart ∧ entry ∈ entries ∧
        4 * (recEnd - recStart) ≤ 5 * entry.overlap recStart recEnd := by
  rw [entryCoveringRecording, findEpgEntryIndexCoveringRecording_eq hfit, Option.bind_some]
  cases hbest : mostOverlapping recStart recEnd entries with
  | none =>
      have hnone := firstMax_eq_none_iff.mp hbest
      simp only [Int.reduceNeg, Int.reduceLT, if_true, reduceCtorEq, false_iff, not_and]
      intro hpos hentry henough
      have := hnone entry hentry
      simp [EpgEntry.overlaps] at this
      omega
  | some best =>
      obtain ⟨best, i⟩ := best
      have hmax := firstMax_eq_some_iff.mp hbest
      have hmem := List.mem_of_getElem? hmax.at_index
      by_cases hcond : 0 < recEnd - recStart ∧
          4 * (recEnd - recStart) ≤ 5 * best.overlap recStart recEnd
      · simp only [if_pos hcond]
        rw [if_neg (by omega), Int.toNat_natCast, hmax.at_index, Option.some.injEq]
        constructor
        · rintro rfl
          exact ⟨hcond.1, hmem, hcond.2⟩
        · intro ⟨hpos, hentry, henough⟩
          by_contra hne
          exact (hdisjoint.forall hmem hentry hne).not_enough hpos hcond.2 henough
      · simp only [if_neg hcond, Int.reduceNeg, Int.reduceLT, if_true, reduceCtorEq, false_iff,
          not_and]
        intro hpos hentry henough
        have hqualifies : entry.overlaps recStart recEnd = true := decide_eq_true (by omega)
        have hle := hmax.greatest entry hentry hqualifies
        exact hcond ⟨hpos, by omega⟩

/-- When the recording's duration fits, the search overflows nowhere and returns
the first entry of greatest positive overlap, exactly when that is four fifths
of a recording that has a duration; among disjoint entries it is one entry,
whatever their order. -/
theorem findEpgEntry_covers :
    (∀ (entries : List (EpgEntry Programme)) (recStart recEnd : Int),
      int64Lowest ≤ recEnd - recStart ∧ recEnd - recStart ≤ int64Max →
      ∃ idx, findEpgEntryIndexCoveringRecording entries recStart recEnd = some idx ∧
        (∀ i : Nat, idx = i ↔
          0 < recEnd - recStart ∧ ∃ entry, CoversRecording entries recStart recEnd i entry) ∧
        ((∀ i : Nat, idx ≠ i) → idx = -1)) ∧
    ∀ (entries others : List (EpgEntry Programme)) (recStart recEnd : Int),
      entries.Pairwise EpgEntry.Disjoint → entries.Perm others →
      entryCoveringRecording entries recStart recEnd =
        entryCoveringRecording others recStart recEnd := by
  constructor
  · intro entries recStart recEnd hfit
    refine ⟨_, findEpgEntryIndexCoveringRecording_eq hfit entries, ?_, ?_⟩
    · intro i
      constructor
      · intro hidx
        cases hbest : mostOverlapping recStart recEnd entries with
        | none =>
            rw [hbest] at hidx
            simp at hidx
        | some best =>
            simp only [hbest] at hidx
            split at hidx
            · next hcond =>
                obtain rfl : best.2 = i := by omega
                exact ⟨hcond.1, best.1, mostOverlapping_eq_some_iff.mp ⟨hbest, hcond.2⟩⟩
            · omega
      · intro ⟨hpos, entry, hcovers⟩
        obtain ⟨hbest, henough⟩ := mostOverlapping_eq_some_iff.mpr hcovers
        simp only [hbest, hpos, henough, and_self, if_true]
    · intro hnone
      cases hbest : mostOverlapping recStart recEnd entries with
      | none => rfl
      | some best =>
          simp only [hbest] at hnone ⊢
          split
          · next hcond => exact absurd (if_pos hcond) (hnone best.2)
          · rfl
  · intro entries others recStart recEnd hdisjoint hperm
    have hdisjoint' : others.Pairwise EpgEntry.Disjoint :=
      (hperm.pairwise_iff EpgEntry.Disjoint.symm).mp hdisjoint
    by_cases hfit : int64Lowest ≤ recEnd - recStart ∧ recEnd - recStart ≤ int64Max
    · refine Option.ext fun entry => ?_
      rw [entryCoveringRecording_eq_some_iff hfit hdisjoint,
        entryCoveringRecording_eq_some_iff hfit hdisjoint', hperm.mem_iff]
    · simp only [entryCoveringRecording, findEpgEntryIndexCoveringRecording, subInt64, if_neg hfit,
        Option.bind_none]

/-- A recording begun a minute early finds its own programme, not the next. -/
theorem findEpgEntry_covers_padded :
    (∃ idx, findEpgEntryIndexCoveringRecording
        [(⟨(), 0, 60⟩ : EpgEntry Unit), ⟨(), 60, 3660⟩] 0 3660 = some idx ∧
      (∀ i : Nat, idx = i ↔ (0 : Int) < 3660 - 0 ∧ ∃ entry, CoversRecording
        [(⟨(), 0, 60⟩ : EpgEntry Unit), ⟨(), 60, 3660⟩] 0 3660 i entry) ∧
      ((∀ i : Nat, idx ≠ i) → idx = -1)) ∧
    entryCoveringRecording [(⟨(), 0, 60⟩ : EpgEntry Unit), ⟨(), 60, 3660⟩] 0 3660 =
      entryCoveringRecording [(⟨(), 60, 3660⟩ : EpgEntry Unit), ⟨(), 0, 60⟩] 0 3660 := by
  refine ⟨findEpgEntry_covers.1 _ _ _ (by decide), findEpgEntry_covers.2 _ _ _ _ ?_
    (List.Perm.swap _ _ _)⟩
  simp only [List.pairwise_cons, List.mem_singleton, forall_eq, List.not_mem_nil, false_implies,
    implies_true, List.Pairwise.nil, and_self, and_true, EpgEntry.Disjoint]
  omega

end DispatcharrPvr
