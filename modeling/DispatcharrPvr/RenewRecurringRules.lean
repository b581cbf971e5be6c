import DispatcharrPvr.RecurringRuleEdit
import DispatcharrPvr.RecurringRuleRenewal
import DispatcharrPvr.RuleServer

/-!
# RenewRecurringRules

The background cycle over the recurring rules: `PVRDispatcharr`'s
`RenewRecurringRules` and, ahead of it in the same cycle,
`AdoptExistingRecurringRulesOnce`.

The renewal works on the list the adoption leaves behind, where a rule it
tagged carries its new name but, even when it was given an end date, not that
date.
-/

namespace DispatcharrPvr

/-! ## AdoptExistingRecurringRulesOnce -/

/-- `it->name = name` on the first rule of the id. -/
def renameRule (id : Int) (name : ByteString) : List RecurringRule → List RecurringRule
  | [] => []
  | rule :: rest =>
      if rule.id = id then { rule with name } :: rest else rule :: renameRule id name rest

/-- The PATCH that tags a rule, with an end date for one that has none. -/
def adoptionPatch (rule : RecurringRule) (now : Int) : RecurringRuleEditPatch :=
  let fallbackEnd := computeEndDateForOpenEndedRuleEdit rule.endDate rule.startDate now
    recurringRuleWindowDays
  { name := some (addManagedRuleMarker rule.name)
    endDate := if 0 < fallbackEnd then some fallbackEnd else none }

/-- What the tagging loop works on; an id absent from `m_adoptionFailures` has
0 failures. -/
structure Tagging where
  server : RuleServer
  rules : List RecurringRule
  failures : Int → Nat
  stillPending : List Int

/-- The body of the tagging loop. -/
def tagRule (answers : RuleAnswers) (now : Int) (st : Tagging) (id : Int) : Tagging :=
  if maxAdoptionRetriesPerSession ≤ st.failures id then
    { st with stillPending := st.stillPending ++ [id] }
  else
    match st.rules.find? (fun r => r.id == id) with
    -- not reached: a planned id is one of the rules
    | none => st
    | some rule =>
        let patch := adoptionPatch rule now
        let answer := st.server.answer answers id patch
        let server := st.server.send answers id patch
        let without (n : Nat) := fun i => if i = id then n else st.failures i
        if answer.outcome.isOk then
          { st with
            server
            rules := renameRule id (addManagedRuleMarker rule.name) st.rules
            failures := without 0 }
        else if classifyAdoptionPatchFailure answer.httpStatus = .permanent then
          { st with server, failures := without 0 }
        else
          { st with
            server
            failures := without (st.failures id + 1)
            stillPending := st.stillPending ++ [id] }

/-- `m_recurringAdoption`, `m_adoptionFailures` and the server. -/
structure RenewalState where
  adoption : RecurringRuleAdoptionState := {}
  failures : Int → Nat := fun _ => 0
  server : RuleServer

/-- `AdoptExistingRecurringRulesOnce`: the state after it, and the rules as it
leaves them. -/
def adoptExistingRecurringRulesOnce (answers : RuleAnswers) (rules : List RecurringRule)
    (recordings : List Recording) (haveRecordings : Bool) (now : Int) (st : RenewalState) :
    RenewalState × List RecurringRule :=
  let adoption := if st.adoption.known then st.adoption else evaluateInitialAdoption rules now
  if adoption.done then ({ st with adoption }, rules)
  else
    let plan := planRecurringRuleAdoption adoption.pending rules recordings haveRecordings now
      recurringRuleRenewalSafetyMarginSeconds
    let tagged := plan.toTag.foldl (tagRule answers now)
      { server := st.server, rules, failures := st.failures, stillPending := plan.deferred }
    ({ adoption :=
        { adoption with pending := tagged.stillPending, done := tagged.stillPending.isEmpty }
       failures := tagged.failures
       server := tagged.server }, tagged.rules)

/-! ## RenewRecurringRules -/

/-- The body of the renewal loop. -/
def renewRule (answers : RuleAnswers) (recordings : List Recording) (haveRecordings : Bool)
    (now : Int) (server : RuleServer) (rule : RecurringRule) : RuleServer :=
  if shouldRenewRecurringRule rule recordings haveRecordings now recurringRuleWindowDays
      recurringRuleRenewalSafetyMarginSeconds then
    server.send answers rule.id (RuleServer.endDatePatch (now + recurringRuleWindowDays * 86400))
  else server

/-- `RenewRecurringRules`, given what `GetRecurringRules` and `GetRecordings`
return; `none` is a failed read. -/
def renewRecurringRules (answers : RuleAnswers) (readRules : Option (List RecurringRule))
    (readRecordings : Option (List Recording)) (now : Int) (st : RenewalState) : RenewalState :=
  match readRules with
  | none => st
  | some rules =>
      let recordings := readRecordings.getD []
      let adopted := adoptExistingRecurringRulesOnce answers rules recordings readRecordings.isSome
        now st
      { adopted.1 with
        server := adopted.2.foldl (renewRule answers recordings readRecordings.isSome now)
          adopted.1.server }

end DispatcharrPvr
