import DispatcharrPvr.RuleServer

/-!
# EndDates

What an end date that is sent has to respect: the calendar day of the rule's
first day once everything is done, and of the end date it replaces.  An end
date that is not positive is none, as the add-on reads it.
-/

namespace DispatcharrPvr

/-- The calendar day of an instant, the date `DateStringFromTime` writes. -/
def day (t : Int) : Int := t / 86400

theorem day_add (t n : Int) : day (t + n * 86400) = day t + n := by
  simp only [day]
  omega

theorem day_mono {s t : Int} (h : s ≤ t) : day s ≤ day t := by
  simp only [day]
  omega

theorem day_max (s t : Int) : day (max s t) = max (day s) (day t) := by
  simp only [day]
  omega

/-- A rule the server can hold: it starts on or before its last day. -/
def ValidRule (rule : RecurringRule) : Prop :=
  0 < rule.endDate → day rule.startDate ≤ day rule.endDate

instance (rule : RecurringRule) : Decidable (ValidRule rule) :=
  inferInstanceAs (Decidable (_ → _))

/-- The server refuses a PATCH that would leave a rule it cannot hold. -/
def Validates (answers : RuleAnswers) : Prop :=
  ∀ n rule patch, (answers n rule patch).outcome.landed = true → ValidRule (patch.apply rule)

/-- The end date of a request, when it sends one, is neither before the first
day the rule has afterwards nor before the end date it replaces. -/
def KeepsEndDate (after : RecurringRule) (req : RuleRequest) : Prop :=
  ∀ d, req.patch.endDate = some d →
    day after.startDate ≤ day d ∧ (0 < req.before.endDate → day req.before.endDate ≤ day d)

/-- Every request so far, against the rules as they are now. -/
def RuleServer.EndDatesKept (s : RuleServer) : Prop :=
  ∀ req ∈ s.log, KeepsEndDate (s.rules req.ruleId) req

theorem keepsEndDate_of_none {after : RecurringRule} {req : RuleRequest}
    (h : req.patch.endDate = none) : KeepsEndDate after req := by
  intro d hd
  rw [h] at hd
  contradiction

theorem keepsEndDate_iff {after : RecurringRule} {req : RuleRequest} {d : Int}
    (h : req.patch.endDate = some d) :
    KeepsEndDate after req ↔
      day after.startDate ≤ day d ∧ (0 < req.before.endDate → day req.before.endDate ≤ day d) := by
  simp [KeepsEndDate, h]

instance (after : RecurringRule) (req : RuleRequest) : Decidable (KeepsEndDate after req) :=
  match h : req.patch.endDate with
  | none => .isTrue (keepsEndDate_of_none h)
  | some _ => decidable_of_iff _ (keepsEndDate_iff h).symm

instance (s : RuleServer) : Decidable s.EndDatesKept :=
  inferInstanceAs (Decidable (∀ req ∈ s.log, KeepsEndDate (s.rules req.ruleId) req))

namespace RuleServer

section Send

variable (answers : RuleAnswers) (s : RuleServer) (ruleId : Int) (patch : RecurringRuleEditPatch)

theorem startDate_send :
    ((s.send answers ruleId patch).rules ruleId).startDate =
      if (s.answer answers ruleId patch).outcome.landed then
        patch.startDate.getD (s.rules ruleId).startDate
      else (s.rules ruleId).startDate := by
  rw [rules_send_self]
  split <;> rfl

theorem endDate_send :
    ((s.send answers ruleId patch).rules ruleId).endDate =
      if (s.answer answers ruleId patch).outcome.landed then
        patch.endDate.getD (s.rules ruleId).endDate
      else (s.rules ruleId).endDate := by
  rw [rules_send_self]
  split <;> rfl

/-- A PATCH of the end date alone leaves the first day alone. -/
@[simp] theorem startDate_send_endDatePatch (d id : Int) :
    ((s.send answers ruleId (endDatePatch d)).rules id).startDate = (s.rules id).startDate := by
  by_cases h : id = ruleId
  · rw [h, startDate_send]
    split <;> rfl
  · rw [rules_send_of_ne _ _ _ _ h]

/-- The rules stay ones the server can hold. -/
theorem validRule_send {answers : RuleAnswers} {s : RuleServer} (hanswers : Validates answers)
    (hrules : ∀ id, ValidRule (s.rules id)) (ruleId : Int) (patch : RecurringRuleEditPatch)
    (id : Int) : ValidRule ((s.send answers ruleId patch).rules id) := by
  by_cases h : id = ruleId
  · rw [h, rules_send_self]
    split
    · next hlanded => exact hanswers _ _ _ hlanded
    · exact hrules ruleId
  · rw [rules_send_of_ne _ _ _ _ h]
    exact hrules id

end Send

end RuleServer

end DispatcharrPvr
