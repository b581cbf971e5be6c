import DispatcharrPvr.Lib.TruncDiv
import DispatcharrPvr.RecurringRule

/-!
# ServerOffsetCrossCheck

What the occurrences the server makes of a recurring rule say about the UTC
offset it schedules with: `CrossCheckServerOffset` against one zone table,
`JudgeServerOffset` against the table and the legacy table, and the tracker
that adopts an override once enough judgements in a row propose it.

A zone table is the function that gives the offset in minutes at an instant,
`none` where the zone is unknown.
-/

namespace DispatcharrPvr

/-- `OffsetSample`: a rule's start in the server's local time and the instant
of an occurrence of it. -/
structure OffsetSample where
  ruleStartTimeOfDaySeconds : Int := 0
  occurrenceStartUtc : Int := 0
deriving DecidableEq, Repr

/-- `kMaxPlausibleOffsetDeltaMinutes`. -/
def maxPlausibleOffsetDeltaMinutes : Int := 60

/-- `ImpliedOffsetMinutes`: the offset closest to `nearOffsetMinutes` that
turns the instant into the rule's time of day. -/
def impliedOffsetMinutes (ruleStartTimeOfDaySeconds occurrenceStartUtc nearOffsetMinutes : Int) :
    Int :=
  let day := 86400
  let utcTimeOfDay := TruncDiv.floorMod occurrenceStartUtc day
  let near := nearOffsetMinutes * 60
  let delta := (ruleStartTimeOfDaySeconds - utcTimeOfDay - near).tmod day
  let delta :=
    if delta > day.tdiv 2 then delta - day
    else if delta ≤ -(day.tdiv 2) then delta + day
    else delta
  TruncDiv.floorDiv (near + delta + 30) 60

/-! ## CrossCheckServerOffset -/

/-- `ServerOffsetVerdict::Kind`. -/
inductive VerdictKind where
  | noEvidence
  | agrees
  | disagrees
deriving DecidableEq, Repr

/-- `ServerOffsetVerdict`. -/
structure ServerOffsetVerdict where
  kind : VerdictKind := .noEvidence
  impliedOffsetMinutes : Int := 0
  tableOffsetMinutes : Int := 0
  agreeingTableOffsets : List Int := []
deriving DecidableEq, Repr

/-- The locals of the loop of `CrossCheckServerOffset`. -/
structure CrossCheck where
  agrees : Bool := false
  agreeingOffsets : List Int := []
  haveDisagreement : Bool := false
  disagreementConsistent : Bool := true
  disagreement : Int := 0
  disagreementTableOffset : Int := 0

/-- The table's offset at a sample, unless the table has no answer there or
one of its clock changes is within a day. -/
def tableOffsetAt (table : Int → Option Int) (sample : OffsetSample) : Option Int :=
  match table sample.occurrenceStartUtc, table (sample.occurrenceStartUtc - 86400),
      table (sample.occurrenceStartUtc + 86400) with
  | some tableOffset, some before, some after =>
      if before ≠ tableOffset ∨ after ≠ tableOffset then none else some tableOffset
  | _, _, _ => none

/-- The body of the loop. -/
def CrossCheck.look (table : Int → Option Int) (st : CrossCheck) (sample : OffsetSample) :
    CrossCheck :=
  match tableOffsetAt table sample with
  | none => st
  | some tableOffset =>
      let implied := DispatcharrPvr.impliedOffsetMinutes sample.ruleStartTimeOfDaySeconds
        sample.occurrenceStartUtc tableOffset
      if implied = tableOffset then
        { st with
          agrees := true
          agreeingOffsets :=
            if tableOffset ∈ st.agreeingOffsets then st.agreeingOffsets
            else st.agreeingOffsets ++ [tableOffset] }
      -- most likely an edited rule beside its old occurrences
      else if (implied - tableOffset).natAbs > maxPlausibleOffsetDeltaMinutes then st
      else if !st.haveDisagreement then
        { st with
          haveDisagreement := true
          disagreement := implied
          disagreementTableOffset := tableOffset }
      else if st.disagreement ≠ implied ∨ st.disagreementTableOffset ≠ tableOffset then
        { st with disagreementConsistent := false }
      else st

/-- `CrossCheckServerOffset`. -/
def crossCheckServerOffset (table : Int → Option Int) (samples : List OffsetSample) :
    ServerOffsetVerdict :=
  let st := samples.foldl (CrossCheck.look table) {}
  if st.agrees then
    { kind := .agrees, agreeingTableOffsets := st.agreeingOffsets }
  else if st.haveDisagreement && st.disagreementConsistent then
    { kind := .disagrees
      impliedOffsetMinutes := st.disagreement
      tableOffsetMinutes := st.disagreementTableOffset }
  else {}

/-! ## JudgeServerOffset -/

/-- `ServerOffsetOverride::Mode`. -/
inductive OverrideMode where
  | none
  | legacyZoneData
  | constantDelta
deriving DecidableEq, Repr

/-- `ServerOffsetOverride`. -/
structure ServerOffsetOverride where
  mode : OverrideMode := .none
  deltaMinutes : Int := 0
  tableOffsetMinutes : Int := 0
deriving DecidableEq, Repr

/-- `ServerOffsetJudgement`. -/
structure ServerOffsetJudgement where
  kind : VerdictKind := .noEvidence
  proposed : ServerOffsetOverride := {}
  legacyKind : VerdictKind := .noEvidence
  agreeingTableOffsets : List Int := []
deriving DecidableEq, Repr

/-- `JudgeServerOffset`. -/
def judgeServerOffset (table legacy : Int → Option Int) (samples : List OffsetSample) :
    ServerOffsetJudgement :=
  let verdict := crossCheckServerOffset table samples
  let legacy := crossCheckServerOffset legacy samples
  let judgement : ServerOffsetJudgement :=
    { kind := verdict.kind
      legacyKind := legacy.kind
      agreeingTableOffsets := verdict.agreeingTableOffsets }
  if verdict.kind ≠ .disagrees then judgement
  else
    match legacy.kind with
    | .agrees => { judgement with proposed := { mode := .legacyZoneData } }
    | .noEvidence => { judgement with kind := .noEvidence }
    | .disagrees =>
        { judgement with
          proposed :=
            { mode := .constantDelta
              deltaMinutes := verdict.impliedOffsetMinutes - verdict.tableOffsetMinutes
              tableOffsetMinutes := verdict.tableOffsetMinutes } }

/-- A disagreement proposes an override that is one. -/
theorem judgeServerOffset_proposed_mode {table legacy : Int → Option Int}
    {samples : List OffsetSample} (h : (judgeServerOffset table legacy samples).kind = .disagrees) :
    (judgeServerOffset table legacy samples).proposed.mode ≠ .none := by
  revert h
  simp only [judgeServerOffset]
  split
  · intro h; contradiction
  · cases (crossCheckServerOffset legacy samples).kind <;> simp

/-- `ApplyServerOffsetOverride`. -/
def applyServerOffsetOverride (ov : ServerOffsetOverride) (tableOffset legacyOffset : Int) : Int :=
  match ov.mode with
  | .legacyZoneData => legacyOffset
  | .constantDelta =>
      if tableOffset = ov.tableOffsetMinutes then tableOffset + ov.deltaMinutes else tableOffset
  | .none => tableOffset

/-! ## UpdateServerOffsetTracker -/

/-- `ServerOffsetChange`. -/
inductive ServerOffsetChange where
  | none
  | activated
  | changed
  | cleared
deriving DecidableEq, Repr

/-- `ServerOffsetTracker`. -/
structure ServerOffsetTracker where
  zone : ByteString := []
  active : ServerOffsetOverride := {}
  pending : ServerOffsetOverride := {}
  pendingCount : Nat := 0
deriving DecidableEq, Repr

/-- `kServerOffsetConfirmations`. -/
def serverOffsetConfirmations : Nat := 2

/-- The zone setting of a user who gave the offset by hand. -/
def manualZone : ByteString := ascii "manual"

namespace ServerOffsetTracker

/-- `tracker.pending = {}; tracker.pendingCount = 0;`. -/
def dropPending (tracker : ServerOffsetTracker) : ServerOffsetTracker :=
  { tracker with pending := {}, pendingCount := 0 }

/-- The lambda `clear`. -/
def clear (tracker : ServerOffsetTracker) : ServerOffsetTracker :=
  { tracker with active := {}, pending := {}, pendingCount := 0 }

end ServerOffsetTracker

/-- Whether an agreeing judgement contradicts the active override. -/
def ServerOffsetOverride.contradicted (active : ServerOffsetOverride)
    (judgement : ServerOffsetJudgement) : Bool :=
  match active.mode with
  | .none => false
  | .legacyZoneData => judgement.legacyKind == .disagrees
  | .constantDelta => judgement.agreeingTableOffsets.contains active.tableOffsetMinutes

/-- The lambda `result`: the tracker after a judgement of its own zone. -/
def ServerOffsetTracker.learn (tracker : ServerOffsetTracker) (judgement : ServerOffsetJudgement) :
    ServerOffsetTracker × ServerOffsetChange :=
  match judgement.kind with
  | .agrees =>
      if !tracker.active.contradicted judgement then (tracker.dropPending, .none)
      else (tracker.dropPending.clear, .cleared)
  | .noEvidence => (tracker.dropPending, .none)
  | .disagrees =>
      if judgement.proposed = tracker.active then (tracker.dropPending, .none)
      else
        let counted :=
          if judgement.proposed = tracker.pending then
            { tracker with pendingCount := tracker.pendingCount + 1 }
          else { tracker with pending := judgement.proposed, pendingCount := 1 }
        if counted.pendingCount < serverOffsetConfirmations then (counted, .none)
        else
          ({ counted with active := counted.pending }.dropPending,
            if tracker.active.mode ≠ .none then .changed else .activated)

/-- `UpdateServerOffsetTracker`. -/
def updateServerOffsetTracker (tracker : ServerOffsetTracker) (zone : ByteString)
    (judgement : ServerOffsetJudgement) : ServerOffsetTracker × ServerOffsetChange :=
  if zone = manualZone ∨ zone ≠ tracker.zone then
    let clearedByZoneChange := tracker.active.mode ≠ .none
    let entered := { tracker.clear with zone }
    if zone = manualZone then
      (entered, if clearedByZoneChange then .cleared else .none)
    else
      let (after, result) := entered.learn judgement
      (after, if clearedByZoneChange ∧ result = .none then .cleared else result)
  else tracker.learn judgement

end DispatcharrPvr
