import DispatcharrPvr.ManagedRecurringRule

/-!
# RecurringRuleRenewal

When a recurring rule's end date is pushed forward (`RecurringRuleRenewal.cpp`)
and how far: in the background for the rules the add-on owns, and on an edit
that re-enables a rule or moves its first day.
-/

namespace DispatcharrPvr

/-- `kRecurringRuleWindowDays`. -/
def recurringRuleWindowDays : Int := 30

/-- `kRecurringRuleRenewalSafetyMarginSeconds`. -/
def recurringRuleRenewalSafetyMarginSeconds : Int := 3600

/-- `ShouldRenewRecurringRule`. -/
def shouldRenewRecurringRule (rule : RecurringRule) (recordings : List Recording)
    (haveRecordings : Bool) (now windowDays safetyMarginSeconds : Int) : Bool :=
  if !rule.enabled then false
  else if !isManagedRuleName rule.name then false
  else if ¬ rule.endDate ≤ now ∧ windowDays.tdiv 2 ≤ (rule.endDate - now).tdiv 86400 then false
  else !hasActiveOrImminentOccurrence rule recordings haveRecordings now safetyMarginSeconds

/-- `ShouldExtendRecurringRuleEndDateOnUpdate`. -/
def shouldExtendRecurringRuleEndDateOnUpdate (wasEnabled enabled : Bool)
    (cachedEndDate now windowDays : Int) : Bool :=
  if wasEnabled || !enabled then false
  else if cachedEndDate ≤ 0 then false
  else (cachedEndDate - now).tdiv 86400 < windowDays.tdiv 2

/-- `ComputeRecurringRuleEndDateForStartDateChange`. -/
def computeRecurringRuleEndDateForStartDateChange (newStartDate cachedEndDate windowDays : Int) :
    Int :=
  if cachedEndDate ≤ 0 then 0
  else if newStartDate < cachedEndDate then 0
  else newStartDate + windowDays * 86400

/-- `HasRecurringRuleEndDatePassed`. -/
def hasRecurringRuleEndDatePassed (enabled : Bool) (endDate now offsetMinutes : Int) : Bool :=
  if !enabled || decide (endDate ≤ 0) then false
  else endDate + 86400 - offsetMinutes * 60 ≤ now

/-! ## what each decision needs -/

/-- C's quotient rounds a positive difference down. -/
theorem lt_of_tdiv_lt {a n : Int} (hn : 0 ≤ n) (h : a.tdiv 86400 < n) : a < n * 86400 := by
  by_cases ha : 0 ≤ a
  · rw [Int.tdiv_eq_ediv_of_nonneg ha] at h
    omega
  · omega

/-- A renewed rule is enabled, owned, and within half a window of its end. -/
theorem of_shouldRenewRecurringRule {rule : RecurringRule} {recordings : List Recording}
    {haveRecordings : Bool} {now margin : Int}
    (h : shouldRenewRecurringRule rule recordings haveRecordings now recurringRuleWindowDays
      margin = true) :
    isManagedRuleName rule.name = true ∧ rule.endDate < now + 15 * 86400 := by
  simp only [shouldRenewRecurringRule] at h
  split at h
  · contradiction
  · split at h
    · contradiction
    · next hmanaged =>
        split at h
        · contradiction
        · next hwindow =>
            refine ⟨by simpa using hmanaged, ?_⟩
            by_cases hend : rule.endDate ≤ now
            · omega
            · have hlt : (rule.endDate - now).tdiv 86400 < 15 := by
                have hhalf : recurringRuleWindowDays.tdiv 2 = 15 := by decide
                rw [hhalf] at hwindow
                omega
              have := lt_of_tdiv_lt (by decide) hlt
              omega

/-- An extension on re-enabling is made for a rule that has an end date less
than half a window away. -/
theorem shouldExtendOnUpdate_iff {wasEnabled enabled : Bool} {cachedEndDate now : Int} :
    shouldExtendRecurringRuleEndDateOnUpdate wasEnabled enabled cachedEndDate now
        recurringRuleWindowDays = true ↔
      wasEnabled = false ∧ enabled = true ∧ 0 < cachedEndDate ∧
        (cachedEndDate - now).tdiv 86400 < 15 := by
  have hhalf : recurringRuleWindowDays.tdiv 2 = 15 := by decide
  rw [shouldExtendRecurringRuleEndDateOnUpdate, hhalf]
  cases wasEnabled <;> cases enabled <;> simp

/-- The extension a moved first day needs. -/
theorem endDateForStartDateChange_pos_iff {newStartDate cachedEndDate : Int} :
    0 < computeRecurringRuleEndDateForStartDateChange newStartDate cachedEndDate
        recurringRuleWindowDays ↔ 0 < cachedEndDate ∧ cachedEndDate ≤ newStartDate := by
  simp only [computeRecurringRuleEndDateForStartDateChange, recurringRuleWindowDays]
  split
  · omega
  · split <;> omega

theorem endDateForStartDateChange_eq {newStartDate cachedEndDate : Int}
    (h : 0 < cachedEndDate ∧ cachedEndDate ≤ newStartDate) :
    computeRecurringRuleEndDateForStartDateChange newStartDate cachedEndDate
      recurringRuleWindowDays = newStartDate + 30 * 86400 := by
  have h1 : ¬ cachedEndDate ≤ 0 := by omega
  have h2 : ¬ newStartDate < cachedEndDate := by omega
  rw [computeRecurringRuleEndDateForStartDateChange, if_neg h1, if_neg h2]
  rfl

end DispatcharrPvr
