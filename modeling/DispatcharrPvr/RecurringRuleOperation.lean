import DispatcharrPvr.RenewRecurringRules.EndDates
import DispatcharrPvr.UpdateTimer.EndDates

/-!
# RecurringRuleOperation

The operations that write a rule's end date: a save from the timer dialog and
the background cycle, with its adoption and its renewals.
-/

namespace DispatcharrPvr

inductive RecurringRuleOperation
  /-- `UpdateTimer`. -/
  | update (u : RecurringUpdate)
  /-- `RenewRecurringRules`, on what it reads of the rules and the recordings. -/
  | renew (readRules : Option (List RecurringRule)) (readRecordings : Option (List Recording))
      (adoption : RecurringRuleAdoptionState) (failures : Int → Nat)

namespace RecurringRuleOperation

/-- The rules a cycle reads are the server's, each under its own id. -/
def ReadsServer (rules : Int → RecurringRule) : RecurringRuleOperation → Prop
  | .update _ => True
  | .renew readRules .. =>
      ∀ read, readRules = some read →
        (∀ rule ∈ read, rules rule.id = rule) ∧ (read.map (·.id)).Nodup

section Perform

variable (answers : RuleAnswers) (D K : Int → Int) (now : Int) (rules : Int → RecurringRule)

/-- The server after an operation, from the rules it held before. -/
def perform : RecurringRuleOperation → RuleServer
  | .update u => (u.updateTimer answers D K now { rules }).server
  | .renew readRules readRecordings adoption failures =>
      (renewRecurringRules answers readRules readRecordings now
        { adoption, failures, server := { rules } }).server

/-- When the end dates an operation sends are kept. -/
def EndDatesReach : RecurringRuleOperation → Prop
  | .update u =>
      u.fresh ≠ .gone → (u.computedFields D K now).ok = true →
        u.EndDatesReach answers (u.computedFields D K now) now { rules }
  | .renew readRules readRecordings adoption failures =>
      ∀ read, readRules = some read →
        RenewalsReach answers read readRecordings now { adoption, failures, server := { rules } }

/-- **End dates sent are kept** exactly under `EndDatesReach`: none is before
the first day the rule has once the operation is done, nor before the end date
it replaces. -/
theorem endDatesKept_perform_iff (op : RecurringRuleOperation) (hanswers : Validates answers)
    (hrules : ∀ id, ValidRule (rules id)) (hread : op.ReadsServer rules) :
    (op.perform answers D K now rules).EndDatesKept ↔ op.EndDatesReach answers D K now rules := by
  cases op with
  | update u => exact u.endDatesKept_updateTimer_iff rfl hanswers hrules
  | renew readRules readRecordings adoption failures =>
      cases readRules with
      | none =>
          have hnone : (perform answers D K now rules
              (.renew none readRecordings adoption failures)).EndDatesKept := by
            intro req hreq
            exact absurd hreq List.not_mem_nil
          exact ⟨fun _ _ h => absurd h (Option.some_ne_none _).symm, fun _ => hnone⟩
      | some read =>
          obtain ⟨hread, hids⟩ := hread read rfl
          have hiff := @endDatesKept_renewRecurringRules_iff answers now read readRecordings
            { adoption, failures, server := { rules } } rfl hrules hread hids
          refine hiff.trans ⟨fun h other hother => ?_, fun h => h read rfl⟩
          obtain rfl := Option.some.inj hother
          exact h

end Perform

/-! ### one rule -/

/-- A server that takes what leaves a rule it can hold, and refuses the rest. -/
def validatingAnswers : RuleAnswers := fun _ rule patch =>
  if ValidRule (patch.apply rule) then ⟨.ok, 200⟩ else ⟨.failedNotLanded, 400⟩

theorem validates_validatingAnswers : Validates validatingAnswers := by
  intro n rule patch h
  by_cases hvalid : ValidRule (patch.apply rule)
  · exact hvalid
  · rw [validatingAnswers, if_neg hvalid] at h
    contradiction

/-- A rule of the add-on's own. -/
def ownRule (startDate endDate : Int) : RecurringRule where
  id := 7
  name := ascii "News [Kodi]"
  daysOfWeek := [4]
  startDate := startDate
  endDate := endDate

/-- The cycle of 4 October 2024 over that rule alone. -/
def renewOwnRule (startDate endDate : Int) : RuleServer :=
  (RecurringRuleOperation.renew (some [ownRule startDate endDate]) (some [])
    { known := true, done := true } fun _ => 0).perform validatingAnswers (fun _ => 0) (fun _ => 0)
    1728000000 fun _ => ownRule startDate endDate

/-- With five days to go it is renewed for thirty. -/
theorem endDatesKept_perform_iff_renewed :
    (renewOwnRule 1725408000 1728432000).EndDatesKept ∧
      (renewOwnRule 1725408000 1728432000).log.map (·.patch.endDate) = [some 1730592000] := by
  have hiff := endDatesKept_perform_iff validatingAnswers (fun _ => 0) (fun _ => 0) 1728000000
    (fun _ => ownRule 1725408000 1728432000)
    (.renew (some [ownRule 1725408000 1728432000]) (some []) { known := true, done := true }
      fun _ => 0) validates_validatingAnswers (fun _ => by decide) (fun read hread => by
        obtain rfl := Option.some.inj hread
        exact ⟨by decide, by decide⟩)
  refine ⟨hiff.mpr fun read hread => ?_, by decide⟩
  obtain rfl := Option.some.inj hread
  decide

/-- Without an end date, and with its first day two months away, the rule is
sent an end date a month before its first day, which the server refuses. -/
theorem renewal_ends_before_start :
    ValidRule (ownRule 1733184000 0) ∧ ¬ (renewOwnRule 1733184000 0).EndDatesKept ∧
      (renewOwnRule 1733184000 0).log.map (·.patch.endDate) = [some 1730592000] ∧
      (renewOwnRule 1733184000 0).rules 7 = ownRule 1733184000 0 := by
  decide

end RecurringRuleOperation

end DispatcharrPvr
