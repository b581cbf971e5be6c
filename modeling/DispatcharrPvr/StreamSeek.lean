import DispatcharrPvr.Int64Overflow
import DispatcharrPvr.LiveTimeshift.Seek
import Mathlib.Algebra.Group.Int.Defs

/-!
# StreamSeek

The position arithmetic of a stream (`StreamSeek.cpp`) as the machine does it:
a function here has no result at all when one of its signed operations
overflows, which none does for any `int64_t` (`streamSeek_no_overflow`).
-/

namespace DispatcharrPvr

namespace Checked

/-- Whether `ResolveSeekPosition` turns down the sum before it takes it. -/
def seekSumOverflows (base position : Int) : Option Bool :=
  if 0 < position then (subInt64 int64Max position).map fun most => decide (most < base)
  else if position < 0 then (subInt64 int64Lowest position).map fun least => decide (base < least)
  else some false

/-- `ResolveSeekPosition`. -/
def resolveSeekPosition (position whence currentPosition referenceLength : Int) : Option Int :=
  match seekBase whence currentPosition referenceLength with
  | none => some (-1)
  | some base =>
      (seekSumOverflows base position).bind fun overflows =>
        if overflows then some (-1)
        else (addInt64 base position).map fun newPos => if newPos < 0 then -1 else newPos

/-- `ComputeReadRangeEnd`: `rangeEndOut` when it returns true. -/
def computeReadRangeEnd (position size : Int) : Option (Option Int) :=
  if position < 0 ∨ size = 0 then some none
  else
    (subInt64 int64Max size).bind fun most =>
      if most < position then some none
      else
        (addInt64 position size).bind fun past =>
          (subInt64 past 1).map fun rangeEnd => some rangeEnd

/-- `ComputeSegmentReadSize`: `sizeOut` when it returns true. -/
def computeSegmentReadSize (offsetInSegment segmentSize requested : Int) : Option (Option Int) :=
  if offsetInSegment < 0 ∨ segmentSize ≤ offsetInSegment ∨ requested = 0 then some none
  else
    (subInt64 segmentSize offsetInSegment).map fun available =>
      -- `static_cast<unsigned int>`
      some (min requested available % 2 ^ 32)

/-- `rangeEnd` of a read of `wantSize` bytes, as `ReadLiveTimeshiftStreamOnce`
asks for them. -/
def segmentRangeEnd (offsetInSegment wantSize : Int) : Option Int :=
  (addInt64 offsetInSegment wantSize).bind fun past => subInt64 past 1

end Checked

/-! ## the seek -/

/-- Where a seek is to go, over the integers. -/
def seekTarget (position whence currentPosition referenceLength : Int) : Option Int :=
  (seekBase whence currentPosition referenceLength).map (· + position)

/-- What a seek resolves to: its target when that is a stream position. -/
def exactSeekPosition (position whence currentPosition referenceLength : Int) : Int :=
  match seekTarget position whence currentPosition referenceLength with
  | none => -1
  | some target => if 0 ≤ target ∧ target ≤ int64Max then target else -1

theorem seekBase_isInt64 {whence currentPosition referenceLength base : Int}
    (hcurrent : IsInt64 currentPosition) (hlength : IsInt64 referenceLength)
    (h : seekBase whence currentPosition referenceLength = some base) : IsInt64 base := by
  unfold seekBase at h
  split at h
  · obtain rfl : 0 = base := by simpa using h
    exact ⟨by decide, by decide⟩
  split at h
  · obtain rfl : currentPosition = base := by simpa using h
    exact hcurrent
  split at h
  · obtain ⟨-, rfl⟩ : ¬ referenceLength < 0 ∧ referenceLength = base := by simpa using h
    exact hlength
  · contradiction

/-- The guard is of the sum it stands before. -/
theorem seekSumOverflows_eq {base position : Int} (hbase : IsInt64 base)
    (hposition : IsInt64 position) :
    Checked.seekSumOverflows base position = some (decide ¬ IsInt64 (base + position)) := by
  simp only [isInt64_iff] at hbase hposition
  unfold Checked.seekSumOverflows
  by_cases hpositive : 0 < position
  · have hroom : IsInt64 (int64Max - position) := by
      simp only [isInt64_iff, int64Max]
      omega
    rw [if_pos hpositive, subInt64_of_fits hroom, Option.map_some]
    refine congrArg some (decide_eq_decide.mpr ?_)
    simp only [isInt64_iff, int64Max]
    omega
  · by_cases hnegative : position < 0
    · have hroom : IsInt64 (int64Lowest - position) := by
        simp only [isInt64_iff, int64Lowest]
        omega
      rw [if_neg hpositive, if_pos hnegative, subInt64_of_fits hroom, Option.map_some]
      refine congrArg some (decide_eq_decide.mpr ?_)
      simp only [isInt64_iff, int64Lowest]
      omega
    · rw [if_neg hpositive, if_neg hnegative]
      refine congrArg some (decide_eq_false ?_).symm
      simp only [isInt64_iff]
      omega

theorem resolveSeekPosition_eq {position whence currentPosition referenceLength : Int}
    (hposition : IsInt64 position) (hcurrent : IsInt64 currentPosition)
    (hlength : IsInt64 referenceLength) :
    Checked.resolveSeekPosition position whence currentPosition referenceLength =
      some (exactSeekPosition position whence currentPosition referenceLength) := by
  unfold Checked.resolveSeekPosition exactSeekPosition seekTarget
  cases hseek : seekBase whence currentPosition referenceLength with
  | none => rfl
  | some base =>
      have hbase := seekBase_isInt64 hcurrent hlength hseek
      simp only [seekSumOverflows_eq hbase hposition, Option.bind_some, Option.map_some]
      by_cases hfits : IsInt64 (base + position)
      · rw [addInt64_of_fits hfits, Option.map_some]
        have hmax := hfits.2
        grind
      · simp only [isInt64_iff, int64Max] at *
        grind

/-- The seek of a live timeshift, which takes the sums over the integers. -/
theorem resolveSeekPosition_exact {position whence currentPosition referenceLength : Int}
    (hcurrent : IsInt64 currentPosition) (hlength : IsInt64 referenceLength) :
    resolveSeekPosition position whence currentPosition referenceLength =
      exactSeekPosition position whence currentPosition referenceLength := by
  unfold resolveSeekPosition exactSeekPosition seekTarget
  cases hseek : seekBase whence currentPosition referenceLength with
  | none => rfl
  | some base =>
      have hbase := seekBase_isInt64 hcurrent hlength hseek
      simp only [isInt64_iff, int64Max, int64Lowest, Option.map_some] at *
      grind

/-! ## the reads -/

/-- The last byte of a read, when the read ends within `int64_t`. -/
def readRangeEnd (position size : Int) : Option Int :=
  if 0 ≤ position ∧ 0 < size ∧ position + size ≤ int64Max then some (position + size - 1) else none

theorem computeReadRangeEnd_eq {position : Int} (hposition : IsInt64 position) (size : UInt32) :
    Checked.computeReadRangeEnd position size.toNat = some (readRangeEnd position size.toNat) := by
  have hsize := size.toNat_lt
  unfold Checked.computeReadRangeEnd readRangeEnd
  by_cases hnothing : position < 0 ∨ (size.toNat : Int) = 0
  · rw [if_pos hnothing, if_neg (by omega)]
  · have hroom : IsInt64 (int64Max - size.toNat) := by
      simp only [isInt64_iff, int64Max]
      omega
    rw [if_neg hnothing, subInt64_of_fits hroom, Option.bind_some]
    by_cases hpast : int64Max - size.toNat < position
    · rw [if_pos hpast, if_neg (by omega)]
    · have hend : IsInt64 (position + size.toNat) ∧ IsInt64 (position + size.toNat - 1) := by
        simp only [isInt64_iff, int64Max] at *
        omega
      rw [if_neg hpast, if_pos (by omega), addInt64_of_fits hend.1, Option.bind_some,
        subInt64_of_fits hend.2, Option.map_some]

/-- Such a range is the buffer's size, and the read that follows it fits. -/
theorem readRangeEnd_within {position size rangeEnd : Int}
    (h : readRangeEnd position size = some rangeEnd) :
    0 ≤ position ∧ rangeEnd - position + 1 = size ∧ IsInt64 (position + size) := by
  unfold readRangeEnd at h
  split at h
  · obtain rfl : position + size - 1 = rangeEnd := by simpa using h
    simp only [isInt64_iff, int64Max] at *
    omega
  · contradiction

/-- How much a read takes of a segment. -/
def segmentReadSize (offsetInSegment segmentSize requested : Int) : Option Int :=
  if 0 ≤ offsetInSegment ∧ offsetInSegment < segmentSize ∧ 0 < requested then
    some (min requested (segmentSize - offsetInSegment))
  else none

theorem computeSegmentReadSize_eq {offsetInSegment segmentSize : Int}
    (hoffset : IsInt64 offsetInSegment) (hsegment : IsInt64 segmentSize) (requested : UInt32) :
    Checked.computeSegmentReadSize offsetInSegment segmentSize requested.toNat =
      some (segmentReadSize offsetInSegment segmentSize requested.toNat) := by
  have hrequested := requested.toNat_lt
  unfold Checked.computeSegmentReadSize segmentReadSize
  by_cases hnothing :
      offsetInSegment < 0 ∨ segmentSize ≤ offsetInSegment ∨ (requested.toNat : Int) = 0
  · rw [if_pos hnothing, if_neg (by omega)]
  · have havailable : IsInt64 (segmentSize - offsetInSegment) := by
      simp only [isInt64_iff] at *
      omega
    rw [if_neg hnothing, if_pos (by omega), subInt64_of_fits havailable, Option.map_some,
      Int.emod_eq_of_lt (by omega) (by omega)]

/-- A read of a segment lies in it and in the buffer, and its range has an end. -/
theorem segmentReadSize_within {offsetInSegment segmentSize requested wantSize : Int}
    (hsegment : IsInt64 segmentSize)
    (h : segmentReadSize offsetInSegment segmentSize requested = some wantSize) :
    0 < wantSize ∧ wantSize ≤ requested ∧ 0 ≤ offsetInSegment ∧
      offsetInSegment + wantSize ≤ segmentSize ∧
      Checked.segmentRangeEnd offsetInSegment wantSize = some (offsetInSegment + wantSize - 1) := by
  unfold segmentReadSize at h
  split at h
  · next hsome =>
      obtain ⟨hoffset, hbefore, hrequested⟩ := hsome
      obtain rfl : min requested (segmentSize - offsetInSegment) = wantSize := by simpa using h
      generalize hwant : min requested (segmentSize - offsetInSegment) = wantSize
      have hend : IsInt64 (offsetInSegment + wantSize) ∧
          IsInt64 (offsetInSegment + wantSize - 1) := by
        simp only [isInt64_iff] at *
        omega
      refine ⟨by omega, by omega, hoffset, by omega, ?_⟩
      rw [Checked.segmentRangeEnd, addInt64_of_fits hend.1, Option.bind_some,
        subInt64_of_fits hend.2]
  · contradiction

/-- **Stream position arithmetic is free of overflow**: over all `int64_t`s a
seek resolves to its exact target or fails, and a read's range ends where it
should, inside the segment and the buffer. -/
theorem streamSeek_no_overflow :
    (∀ (position currentPosition referenceLength : Int64) (whence : Int32),
      Checked.resolveSeekPosition position.toInt whence.toInt currentPosition.toInt
          referenceLength.toInt =
        some (exactSeekPosition position.toInt whence.toInt currentPosition.toInt
          referenceLength.toInt)) ∧
    (∀ (position : Int64) (size : UInt32),
      Checked.computeReadRangeEnd position.toInt size.toNat =
        some (readRangeEnd position.toInt size.toNat) ∧
      ∀ rangeEnd, readRangeEnd position.toInt size.toNat = some rangeEnd →
        0 ≤ position.toInt ∧ rangeEnd - position.toInt + 1 = size.toNat ∧
        IsInt64 (position.toInt + size.toNat)) ∧
    (∀ (offsetInSegment segmentSize : Int64) (requested : UInt32),
      Checked.computeSegmentReadSize offsetInSegment.toInt segmentSize.toInt requested.toNat =
        some (segmentReadSize offsetInSegment.toInt segmentSize.toInt requested.toNat) ∧
      ∀ wantSize, segmentReadSize offsetInSegment.toInt segmentSize.toInt requested.toNat =
          some wantSize →
        0 < wantSize ∧ wantSize ≤ requested.toNat ∧ 0 ≤ offsetInSegment.toInt ∧
        offsetInSegment.toInt + wantSize ≤ segmentSize.toInt ∧
        Checked.segmentRangeEnd offsetInSegment.toInt wantSize =
          some (offsetInSegment.toInt + wantSize - 1)) := by
  refine ⟨fun position currentPosition referenceLength whence => ?_,
    fun position size => ⟨?_, fun rangeEnd h => ?_⟩,
    fun offsetInSegment segmentSize requested => ⟨?_, fun wantSize h => ?_⟩⟩
  · exact resolveSeekPosition_eq (isInt64_toInt _) (isInt64_toInt _) (isInt64_toInt _)
  · exact computeReadRangeEnd_eq (isInt64_toInt _) size
  · exact readRangeEnd_within h
  · exact computeSegmentReadSize_eq (isInt64_toInt _) (isInt64_toInt _) requested
  · exact segmentReadSize_within (isInt64_toInt _) h

end DispatcharrPvr
