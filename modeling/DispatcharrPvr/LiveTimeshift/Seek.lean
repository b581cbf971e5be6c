import DispatcharrPvr.LiveTimeshift

/-!
# LiveTimeshift.Seek

Where a seek in a live timeshift lands (`SeekLiveTimeshiftStream`,
`StreamSeek.cpp`, `LiveEdgeMargin.h`): held back from the live edge first, then
moved up to the oldest segment that is still there, so that the second wins
where the two cross.
-/

namespace DispatcharrPvr

/-! ## StreamSeek.h -/

/-- What a position is relative to: `SEEK_SET`, `SEEK_CUR` or `SEEK_END`;
nothing for any other `whence`, or for an end that is not known. -/
def seekBase (whence currentPosition referenceLength : Int) : Option Int :=
  if whence = 0 then some 0
  else if whence = 1 then some currentPosition
  else if whence = 2 then if referenceLength < 0 then none else some referenceLength
  else none

/-- `ResolveSeekPosition`. -/
def resolveSeekPosition (position whence currentPosition referenceLength : Int) : Int :=
  match seekBase whence currentPosition referenceLength with
  | none => -1
  | some base =>
      if (0 < position ∧ int64Max - position < base) ∨ (position < 0 ∧ base < int64Lowest - position) then
        -1
      else if base + position < 0 then -1
      else base + position

/-! ## LiveEdgeMargin.h -/

/-- `ComputeLiveEdgeTailTarget`. -/
def computeLiveEdgeTailTarget (segments : List LiveTimeshiftSegmentInfo) (totalBytes : Int)
    (marginSegments : Nat) : Int :=
  let backoffCount := min marginSegments segments.length
  let backoffBytes :=
    (segments.drop (segments.length - backoffCount)).foldl (fun bytes seg => bytes + seg.byteSize) 0
  max 0 (totalBytes - backoffBytes)

/-- `ClampSeekToTail`. -/
def clampSeekToTail (requested current tailTarget : Int) : Int :=
  if requested ≤ tailTarget then requested else max tailTarget (min current requested)

/-- `LiveSeekResolution`. -/
structure LiveSeekResolution where
  position : Int := 0
  clampedToTail : Bool := false
  clampedToHead : Bool := false
deriving DecidableEq, Repr

/-- `ResolveLiveSeekTarget`. -/
def resolveLiveSeekTarget (requested current tailTarget firstAvailable : Int) :
    LiveSeekResolution :=
  let clampedToTail := decide (tailTarget < requested)
  let position := if clampedToTail then clampSeekToTail requested current tailTarget else requested
  let clampedToHead := decide (position < firstAvailable)
  { position := if clampedToHead then firstAvailable else position
    clampedToTail
    clampedToHead }

/-! ## DispatcharrClient -/

/-- `kLiveEdgeSeekBackoffSegments`. -/
def liveEdgeSeekBackoffSegments : Nat := 3

namespace LiveTimeshiftStreamState

/-- Where the live edge begins, for a seek. -/
def seekTailTarget (s : LiveTimeshiftStreamState) : Int :=
  computeLiveEdgeTailTarget s.segments s.totalBytes liveEdgeSeekBackoffSegments

/-- `SeekLiveTimeshiftStream` on the stream it finds after the refresh that a
seek to the end makes: what it returns, and the position it leaves. -/
def seekLiveTimeshiftStream (s : LiveTimeshiftStreamState) (isOpen fatal : Bool)
    (current position whence : Int) : Int × Int :=
  if !isOpen || fatal then (-1, current)
  else
    let newPos := resolveSeekPosition position whence current s.totalBytes
    if newPos < 0 then (-1, current)
    else
      let resolved :=
        resolveLiveSeekTarget newPos current s.seekTailTarget s.firstAvailableLiveByteOffset
      (resolved.position, resolved.position)

end LiveTimeshiftStreamState

/-! ## where it lands -/

/-- What a resolution promises of its target. -/
structure LandsWell (requested current tailTarget firstAvailable : Int) (r : LiveSeekResolution) :
    Prop where
  available : firstAvailable ≤ r.position
  not_beyond : r.position ≤ max requested firstAvailable
  forward : current ≤ requested → current ≤ r.position
  tail : tailTarget < r.position → r.position ≤ current ∨ r.clampedToHead = true
  raised : r.clampedToHead = true → r.position = firstAvailable

theorem clampSeekToTail_le (requested current tailTarget : Int) :
    clampSeekToTail requested current tailTarget ≤ requested := by
  rw [clampSeekToTail]
  split <;> omega

theorem landsWell_resolveLiveSeekTarget (requested current tailTarget firstAvailable : Int) :
    LandsWell requested current tailTarget firstAvailable
      (resolveLiveSeekTarget requested current tailTarget firstAvailable) := by
  have hclamp := clampSeekToTail_le requested current tailTarget
  simp only [resolveLiveSeekTarget, decide_eq_true_iff]
  by_cases htail : tailTarget < requested
  · have heq : clampSeekToTail requested current tailTarget =
        max tailTarget (min current requested) := by
      rw [clampSeekToTail, if_neg (by omega)]
    simp only [htail, if_true, heq]
    constructor <;> simp only [decide_eq_true_iff] <;> split <;> omega
  · simp only [htail, if_false]
    constructor <;> simp only [decide_eq_true_iff] <;> split <;> omega

/-- **Live seeks**: for every resolution, and for every seek of a stream: it
fails and moves nothing, or it lands where the resolution of the position asked
for does. -/
theorem liveSeek_lands :
    (∀ requested current tailTarget firstAvailable : Int,
      LandsWell requested current tailTarget firstAvailable
        (resolveLiveSeekTarget requested current tailTarget firstAvailable)) ∧
    ∀ (s : LiveTimeshiftStreamState) (isOpen fatal : Bool) (current position whence : Int),
      s.seekLiveTimeshiftStream isOpen fatal current position whence = (-1, current) ∨
      ∃ requested r, 0 ≤ requested ∧
        requested = resolveSeekPosition position whence current s.totalBytes ∧
        LandsWell requested current s.seekTailTarget s.firstAvailableLiveByteOffset r ∧
        s.seekLiveTimeshiftStream isOpen fatal current position whence =
          (r.position, r.position) := by
  refine ⟨landsWell_resolveLiveSeekTarget, ?_⟩
  intro s isOpen fatal current position whence
  simp only [LiveTimeshiftStreamState.seekLiveTimeshiftStream]
  split
  · exact .inl rfl
  · split
    · exact .inl rfl
    · exact .inr ⟨_, _, by omega, rfl, landsWell_resolveLiveSeekTarget _ _ _ _, rfl⟩

end DispatcharrPvr
