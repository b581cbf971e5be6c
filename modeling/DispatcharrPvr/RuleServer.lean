import DispatcharrPvr.RecurringRule
import DispatcharrPvr.Request

/-!
# RuleServer

The server as the recurring-rule code sees it: the rules it holds, and every
PATCH it was sent together with the rule the PATCH met.  How a PATCH ends is
given from outside, for each request on its own; only a request that landed
changes the rule.
-/

namespace DispatcharrPvr

/-- A PATCH of a rule, and the rule as it was when the PATCH was sent. -/
structure RuleRequest where
  ruleId : Int
  before : RecurringRule
  patch : RecurringRuleEditPatch
deriving DecidableEq, Repr

/-- How a PATCH ended, and the status that was read when it failed. -/
structure RuleAnswer where
  outcome : RequestOutcome
  httpStatus : Int := 0
deriving DecidableEq, Repr

/-- The answer to the `n`-th request, given the rule it meets. -/
abbrev RuleAnswers := Nat → RecurringRule → RecurringRuleEditPatch → RuleAnswer

structure RuleServer where
  rules : Int → RecurringRule
  log : List RuleRequest := []

namespace RuleServer

/-- The answer the next PATCH gets. -/
def answer (answers : RuleAnswers) (s : RuleServer) (ruleId : Int)
    (patch : RecurringRuleEditPatch) : RuleAnswer :=
  answers s.log.length (s.rules ruleId) patch

/-- The server after a PATCH: `UpdateRecurringRule`. -/
def send (answers : RuleAnswers) (s : RuleServer) (ruleId : Int) (patch : RecurringRuleEditPatch) :
    RuleServer where
  rules :=
    if (s.answer answers ruleId patch).outcome.landed then
      fun id => if id = ruleId then patch.apply (s.rules ruleId) else s.rules id
    else s.rules
  log := s.log ++ [⟨ruleId, s.rules ruleId, patch⟩]

/-- The PATCH of `ExtendRecurringRuleEndDate`. -/
def endDatePatch (newEndDate : Int) : RecurringRuleEditPatch := { endDate := some newEndDate }

section Send

variable (answers : RuleAnswers) (s : RuleServer) (ruleId : Int) (patch : RecurringRuleEditPatch)

@[simp] theorem log_send :
    (s.send answers ruleId patch).log = s.log ++ [⟨ruleId, s.rules ruleId, patch⟩] := rfl

theorem rules_send_self :
    (s.send answers ruleId patch).rules ruleId =
      if (s.answer answers ruleId patch).outcome.landed then patch.apply (s.rules ruleId)
      else s.rules ruleId := by
  simp only [send]
  split
  · exact if_pos rfl
  · rfl

/-- A PATCH of one rule leaves the others alone. -/
theorem rules_send_of_ne {id : Int} (h : id ≠ ruleId) :
    (s.send answers ruleId patch).rules id = s.rules id := by
  simp only [send]
  split
  · exact if_neg h
  · rfl

end Send

end RuleServer

end DispatcharrPvr
