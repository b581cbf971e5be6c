import DispatcharrPvr.RecurringRule

/-!
# ManagedRecurringRule

Which recurring rules the add-on owns (`ManagedRecurringRule.cpp`): the tag at
the end of a rule's name, and the one-time marking of the rules that existed
before the tag did.
-/

namespace DispatcharrPvr

/-! ## the tag -/

/-- `kManagedRuleMarker`. -/
def managedRuleMarker : ByteString := ascii "[Kodi]"

/-- `kSpacedTag`. -/
def spacedTag : ByteString := ascii " " ++ managedRuleMarker

/-- `IsManagedRuleName`. -/
def isManagedRuleName (serverName : ByteString) : Bool :=
  serverName == managedRuleMarker ||
    (decide (spacedTag.length < serverName.length) &&
      serverName.drop (serverName.length - spacedTag.length) == spacedTag)

/-- `StripManagedRuleMarker`. -/
def stripManagedRuleMarker (serverName : ByteString) : ByteString :=
  if serverName = managedRuleMarker then []
  else if isManagedRuleName serverName then
    serverName.take (serverName.length - spacedTag.length)
  else serverName

/-- `AddManagedRuleMarker`. -/
def addManagedRuleMarker (displayName : ByteString) : ByteString :=
  if isManagedRuleName displayName then displayName
  else if displayName.isEmpty then managedRuleMarker
  else displayName ++ spacedTag

/-- `kMaxRuleNameCharacters`. -/
def maxRuleNameCharacters : Nat := 255

/-- A UTF-8 continuation byte, `10xxxxxx`. -/
def isContinuation (b : UInt8) : Bool := b &&& 0xC0 == 0x80

/-- The first `n` code points: a lead byte and its continuation bytes each. -/
def takeCodePoints : Nat → ByteString → ByteString
  | 0, _ => []
  | _, [] => []
  | n + 1, b :: rest =>
      b :: rest.takeWhile isContinuation ++ takeCodePoints n (rest.dropWhile isContinuation)

/-- `AddManagedRuleMarkerBounded`. -/
def addManagedRuleMarkerBounded (displayName : ByteString) : ByteString :=
  if isManagedRuleName displayName then displayName
  else addManagedRuleMarker
    (takeCodePoints (maxRuleNameCharacters - spacedTag.length) displayName)

/-- A name that is tagged is one the add-on owns. -/
theorem isManagedRuleName_addManagedRuleMarker (displayName : ByteString) :
    isManagedRuleName (addManagedRuleMarker displayName) = true := by
  rw [addManagedRuleMarker]
  split
  · assumption
  · split
    · simp [isManagedRuleName]
    · next hne =>
        have hpos : 0 < displayName.length := by
          rw [List.isEmpty_iff] at hne
          exact List.length_pos_iff.mpr hne
        simp [isManagedRuleName, hpos]

/-! ## occurrences -/

/-- `HasActiveOrImminentOccurrence`. -/
def hasActiveOrImminentOccurrence (rule : RecurringRule) (recordings : List Recording)
    (haveRecordings : Bool) (now safetyMarginSeconds : Int) : Bool :=
  !haveRecordings ||
    recordings.any fun rec =>
      rec.recurringRuleId == rule.id &&
        (rec.isInProgress ||
          (rec.isUpcoming && decide (now < rec.endTime) &&
            decide (rec.startTime - now < safetyMarginSeconds)))

/-! ## the one-time marking -/

/-- `RecurringRuleAdoptionState`. -/
structure RecurringRuleAdoptionState where
  known : Bool := false
  done : Bool := false
  pending : List Int := []
deriving DecidableEq, Repr

/-- `EvaluateInitialAdoption`. -/
def evaluateInitialAdoption (rules : List RecurringRule) (now : Int) : RecurringRuleAdoptionState :=
  let anyTagged := rules.any fun r => isManagedRuleName r.name
  if rules.isEmpty || anyTagged then { known := true, done := true }
  else
    let pending :=
      (rules.filter fun rule => !(decide (0 < rule.endDate) && decide (rule.endDate ≤ now))).map (·.id)
    { known := true, done := pending.isEmpty, pending }

/-- `RecurringRuleAdoptionPlan`. -/
structure RecurringRuleAdoptionPlan where
  toTag : List Int := []
  deferred : List Int := []
deriving DecidableEq, Repr

/-- The loop body of `PlanRecurringRuleAdoption`; a pending rule that is gone or
owned by now is in neither list. -/
def planAdoption (rules : List RecurringRule) (recordings : List Recording) (haveRecordings : Bool)
    (now safetyMarginSeconds : Int) (plan : RecurringRuleAdoptionPlan) (id : Int) :
    RecurringRuleAdoptionPlan :=
  match rules.find? (fun r => r.id == id) with
  | none => plan
  | some rule =>
      if isManagedRuleName rule.name then plan
      else if hasActiveOrImminentOccurrence rule recordings haveRecordings now
          safetyMarginSeconds then
        { plan with deferred := plan.deferred ++ [id] }
      else { plan with toTag := plan.toTag ++ [id] }

/-- `PlanRecurringRuleAdoption`. -/
def planRecurringRuleAdoption (pending : List Int) (rules : List RecurringRule)
    (recordings : List Recording) (haveRecordings : Bool) (now safetyMarginSeconds : Int) :
    RecurringRuleAdoptionPlan :=
  pending.foldl (planAdoption rules recordings haveRecordings now safetyMarginSeconds) {}

/-- `AdoptionFailureKind`. -/
inductive AdoptionFailureKind
  | permanent
  | retryLater
deriving DecidableEq, Repr

/-- `ClassifyAdoptionPatchFailure`. -/
def classifyAdoptionPatchFailure (httpStatus : Int) : AdoptionFailureKind :=
  if 400 ≤ httpStatus ∧ httpStatus < 500 ∧ httpStatus ≠ 401 ∧ httpStatus ≠ 408 ∧ httpStatus ≠ 429 then
    .permanent
  else .retryLater

/-- `kMaxAdoptionRetriesPerSession`. -/
def maxAdoptionRetriesPerSession : Nat := 5

section Plan

variable {rules : List RecurringRule} {recordings : List Recording} {haveRecordings : Bool}
  {now margin : Int}

/-- The rule of an id is there and not owned. -/
def Unowned (rules : List RecurringRule) (id : Int) : Prop :=
  ∃ rule, rules.find? (fun r => r.id == id) = some rule ∧ isManagedRuleName rule.name = false

theorem unowned_planAdoption {plan : RecurringRuleAdoptionPlan} (id : Int)
    (h : ∀ i ∈ plan.toTag, Unowned rules i) :
    ∀ i ∈ (planAdoption rules recordings haveRecordings now margin plan id).toTag,
      Unowned rules i := by
  rw [planAdoption]
  split
  · exact h
  · next rule hfind =>
      split
      · exact h
      · next hmanaged =>
          split
          · exact h
          · intro i hi
            rcases List.mem_append.mp hi with hi | hi
            · exact h i hi
            · rw [List.mem_singleton] at hi
              exact ⟨rule, hi ▸ hfind, by simpa using hmanaged⟩

/-- A rule is planned to be tagged only if it is not owned yet. -/
theorem unowned_of_mem_toTag {pending : List Int} {id : Int}
    (h : id ∈ (planRecurringRuleAdoption pending rules recordings haveRecordings now margin).toTag) :
    Unowned rules id := by
  have hfold : ∀ (ids : List Int) (plan : RecurringRuleAdoptionPlan),
      (∀ i ∈ plan.toTag, Unowned rules i) →
      ∀ i ∈ (ids.foldl (planAdoption rules recordings haveRecordings now margin) plan).toTag,
        Unowned rules i := by
    intro ids
    induction ids with
    | nil => intro plan hplan; exact hplan
    | cons i ids ih => intro plan hplan; exact ih _ (unowned_planAdoption i hplan)
  exact hfold pending {} (by simp) id h

end Plan

end DispatcharrPvr
