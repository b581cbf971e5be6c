import DispatcharrPvr.LiveManifestParser

/-!
# LiveTimeshift

The live timeshift's address space: the segments held of the plugin's rolling
buffer, each at its own byte and time offset (`RefreshLiveManifest`,
`OpenLiveTimeshiftStream`, `SegmentAppendOffsets.h`, `LiveEdgeMargin.h`,
`SegmentLookup.h`).

`int64_t` totals are `Int`: each segment adds at most `maxSegmentByteSize`.
-/

namespace DispatcharrPvr

/-- `LiveTimeshiftSegmentInfo`. -/
structure LiveTimeshiftSegmentInfo where
  filename : String := ""
  sequence : Int := 0
  byteOffset : Int := 0
  byteSize : Int := 0
  timeOffsetMs : Int := 0
deriving DecidableEq, Repr

/-- The address space of `LiveTimeshiftStreamState`. -/
structure LiveTimeshiftStreamState where
  segments : List LiveTimeshiftSegmentInfo := []
  oldestAvailableSequence : Int := -1
  totalBytes : Int := 0
  totalDurationMs : Int := 0
deriving DecidableEq, Repr

/-! ## SegmentAppendOffsets.h, SegmentLookup.h -/

/-- `SegmentAppendOffsets`. -/
structure SegmentAppendOffsets where
  byteOffset : Int
  timeOffsetMs : Int
deriving DecidableEq, Repr

/-- `AppendSegmentOffsets`: the offsets, and the two totals advanced. -/
def appendSegmentOffsets (sizeBytes durationMs totalBytes totalDurationMs : Int) :
    SegmentAppendOffsets × Int × Int :=
  (⟨totalBytes, totalDurationMs⟩, totalBytes + sizeBytes, totalDurationMs + durationMs)

/-- The segment a manifest entry becomes at its offsets. -/
def LiveTimeshiftSegmentInfo.ofEntry (entry : LiveManifestSegmentEntry)
    (offsets : SegmentAppendOffsets) : LiveTimeshiftSegmentInfo where
  filename := entry.filename
  sequence := entry.sequence
  byteOffset := offsets.byteOffset
  byteSize := entry.byteSize
  timeOffsetMs := offsets.timeOffsetMs

/-- `FindSegmentContainingPosition`. -/
def findSegmentContainingPosition (position : Int) (segments : List LiveTimeshiftSegmentInfo) :
    Option LiveTimeshiftSegmentInfo :=
  segments.find? fun s =>
    decide (s.byteOffset ≤ position) && decide (position < s.byteOffset + s.byteSize)

/-! ## LiveEdgeMargin.h -/

/-- `FirstAvailableLiveSegmentIndex`: `std::lower_bound` over the sequences,
the first one that is not below the oldest available. -/
def firstAvailableLiveSegmentIndex (segments : List LiveTimeshiftSegmentInfo)
    (oldestAvailableSequence : Int) : Nat :=
  if oldestAvailableSequence < 0 then 0
  else segments.findIdx fun seg => !decide (seg.sequence < oldestAvailableSequence)

/-- `PruneRolledOffLiveSegments`: the last segment is always kept. -/
def pruneRolledOffLiveSegments (segments : List LiveTimeshiftSegmentInfo)
    (oldestAvailableSequence : Int) : List LiveTimeshiftSegmentInfo :=
  if segments.length < 2 then segments
  else
    segments.drop
      (min (firstAvailableLiveSegmentIndex segments oldestAvailableSequence) (segments.length - 1))

/-- A segment moved to another origin. -/
def LiveTimeshiftSegmentInfo.rebase (seg : LiveTimeshiftSegmentInfo) (byteBase timeBase : Int) :
    LiveTimeshiftSegmentInfo :=
  { seg with
    byteOffset := seg.byteOffset - byteBase
    timeOffsetMs := seg.timeOffsetMs - timeBase }

/-- `TrimToTrailingLiveEdgeMargin`. -/
def trimToTrailingLiveEdgeMargin (s : LiveTimeshiftStreamState) (marginSegments : Nat) :
    LiveTimeshiftStreamState :=
  if s.segments.length ≤ marginSegments then s
  else if marginSegments = 0 then { s with segments := [], totalBytes := 0, totalDurationMs := 0 }
  else
    let dropCount := s.segments.length - marginSegments
    match s.segments[dropCount]? with
    -- not reached: something is kept
    | none => s
    | some first =>
        { s with
          segments :=
            (s.segments.drop dropCount).map fun seg => seg.rebase first.byteOffset first.timeOffsetMs
          totalBytes := s.totalBytes - first.byteOffset
          totalDurationMs := s.totalDurationMs - first.timeOffsetMs }

/-! ## DispatcharrClient -/

/-- `kLiveEdgeMarginSegments`. -/
def liveEdgeMarginSegments : Nat := 3

namespace LiveTimeshiftStreamState

/-- `lastKnownSequence`. -/
def lastKnownSequence (s : LiveTimeshiftStreamState) : Int :=
  (s.segments.getLast?.map (·.sequence)).getD (-1)

/-- The body of the merge loop. -/
def appendEntry (s : LiveTimeshiftStreamState) (entry : LiveManifestSegmentEntry) :
    LiveTimeshiftStreamState :=
  let (offsets, totalBytes, totalDurationMs) :=
    appendSegmentOffsets entry.byteSize entry.durationMs s.totalBytes s.totalDurationMs
  { s with
    segments := s.segments ++ [.ofEntry entry offsets]
    totalBytes
    totalDurationMs }

/-- The merge loop. -/
def merge (s : LiveTimeshiftStreamState) (segmentsArray : List Json) : LiveTimeshiftStreamState :=
  (parseNewLiveManifestSegments segmentsArray s.lastKnownSequence).foldl appendEntry s

/-- The oldest available sequence after a manifest. -/
def oldestAfter (s : LiveTimeshiftStreamState) (segmentsArray : List Json) : Int :=
  let oldestSequence := oldestLiveManifestSequence segmentsArray
  if s.oldestAvailableSequence < oldestSequence then oldestSequence else s.oldestAvailableSequence

/-- `RefreshLiveManifest` on a manifest it has accepted. -/
def refreshLiveManifest (s : LiveTimeshiftStreamState) (segmentsArray : List Json) :
    LiveTimeshiftStreamState :=
  let oldestAvailableSequence := s.oldestAfter segmentsArray
  { s.merge segmentsArray with
    oldestAvailableSequence
    segments := pruneRolledOffLiveSegments (s.merge segmentsArray).segments oldestAvailableSequence }

/-- The address space `OpenLiveTimeshiftStream` starts with. -/
def openLiveTimeshiftStream (segmentsArray : List Json) : LiveTimeshiftStreamState :=
  trimToTrailingLiveEdgeMargin (refreshLiveManifest {} segmentsArray) liveEdgeMarginSegments

/-- The first segment the plugin still holds, if it is held here. -/
def firstAvailable (s : LiveTimeshiftStreamState) : Option LiveTimeshiftSegmentInfo :=
  s.segments[firstAvailableLiveSegmentIndex s.segments s.oldestAvailableSequence]?

/-- `FirstAvailableLiveByteOffset`. -/
def firstAvailableLiveByteOffset (s : LiveTimeshiftStreamState) : Int :=
  (s.firstAvailable.map (·.byteOffset)).getD 0

/-- `GetLiveTimeshiftStreamBeginMs` of an open stream. -/
def getLiveTimeshiftStreamBeginMs (s : LiveTimeshiftStreamState) : Int :=
  (s.firstAvailable.map (·.timeOffsetMs)).getD 0

end LiveTimeshiftStreamState

end DispatcharrPvr
