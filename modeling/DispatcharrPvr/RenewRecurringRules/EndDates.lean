import DispatcharrPvr.EndDates
import DispatcharrPvr.RenewRecurringRules

/-!
# RenewRecurringRules.EndDates

The end dates the background cycle sends.  The adoption gives an end date to a
rule that has none and counts from its first day; the renewal counts from now.
-/

namespace DispatcharrPvr

/-! ## the adoption -/

section Adoption

variable {answers : RuleAnswers} {s₀ : RuleServer} {now : Int}

/-- The end date given to a rule that has none. -/
def fallbackEndDate (rule : RecurringRule) (now : Int) : Int :=
  max now rule.startDate + 30 * 86400

theorem endDate_adoptionPatch (rule : RecurringRule) :
    (adoptionPatch rule now).endDate =
      if rule.endDate ≤ 0 ∧ 0 < fallbackEndDate rule now then some (fallbackEndDate rule now)
      else none := by
  let value := computeEndDateForOpenEndedRuleEdit rule.endDate rule.startDate now
    recurringRuleWindowDays
  show (if 0 < value then some value else none) = _
  by_cases hend : 0 < rule.endDate
  · have hvalue : value = 0 := if_pos hend
    rw [hvalue, if_neg (by omega), if_neg (by omega)]
  · have hvalue : value = fallbackEndDate rule now := if_neg hend
    have hnone : rule.endDate ≤ 0 := by omega
    rw [hvalue]
    simp only [hnone, true_and]

/-- Only the first rule of the id is renamed. -/
theorem mem_renameRule {id : Int} {name : ByteString} {rules : List RecurringRule}
    {rule : RecurringRule} (h : rule ∈ renameRule id name rules) :
    rule ∈ rules ∨
      ∃ old, rules.find? (fun r => r.id == id) = some old ∧ rule = { old with name } := by
  induction rules with
  | nil => simp [renameRule] at h
  | cons r rest ih =>
      rw [renameRule] at h
      by_cases hid : r.id = id
      · rw [if_pos hid] at h
        rcases List.mem_cons.mp h with rfl | hrest
        · exact .inr ⟨r, by simp [hid], rfl⟩
        · exact .inl (List.mem_cons_of_mem _ hrest)
      · rw [if_neg hid] at h
        rcases List.mem_cons.mp h with rfl | hrest
        · exact .inl (List.mem_cons_self ..)
        · rcases ih hrest with hmem | ⟨old, hold, heq⟩
          · exact .inl (List.mem_cons_of_mem _ hmem)
          · exact .inr ⟨old, by simpa [hid] using hold, heq⟩

theorem ids_renameRule (id : Int) (name : ByteString) (rules : List RecurringRule) :
    (renameRule id name rules).map (·.id) = rules.map (·.id) := by
  induction rules with
  | nil => rfl
  | cons r rest ih =>
      rw [renameRule]
      split
      · rfl
      · rw [List.map_cons, ih, List.map_cons]

/-- A rule of the list as the cycle read it, or tagged in this cycle: then it
was not owned, and when it had no end date the server has the one it was given. -/
def ReadOrTagged (s₀ server : RuleServer) (now : Int) (rule : RecurringRule) : Prop :=
  let read := s₀.rules rule.id
  rule = read ∨
    (rule = { read with name := rule.name } ∧ isManagedRuleName read.name = false ∧
      (read.endDate ≤ 0 → 0 < fallbackEndDate read now →
        (server.rules rule.id).endDate = fallbackEndDate read now))

/-- The server and the rules during the adoption, against the server `s₀` the
cycle read. -/
structure Adopted (s₀ server : RuleServer) (now : Int) (rules : List RecurringRule) : Prop where
  startDate : ∀ id, (server.rules id).startDate = (s₀.rules id).startDate
  endDate : ∀ id, (server.rules id).endDate = (s₀.rules id).endDate ∨
    ((s₀.rules id).endDate ≤ 0 ∧ isManagedRuleName (s₀.rules id).name = false ∧
      (server.rules id).endDate = fallbackEndDate (s₀.rules id) now)
  rules : ∀ rule ∈ rules, ReadOrTagged s₀ server now rule
  kept : ∀ req ∈ server.log, KeepsEndDate (s₀.rules req.ruleId) req

theorem ReadOrTagged.dates {server : RuleServer} {rule : RecurringRule}
    (h : ReadOrTagged s₀ server now rule) :
    rule.startDate = (s₀.rules rule.id).startDate ∧ rule.endDate = (s₀.rules rule.id).endDate := by
  rcases h with h | ⟨h, -, -⟩
  · exact ⟨congrArg (·.startDate) h, congrArg (·.endDate) h⟩
  · exact ⟨congrArg (·.startDate) h, congrArg (·.endDate) h⟩

/-- What the cycle read is where the adoption starts. -/
theorem adopted_read {rules : List RecurringRule} (hread : ∀ rule ∈ rules, s₀.rules rule.id = rule)
    (hlog : s₀.log = []) : Adopted s₀ s₀ now rules where
  startDate _ := rfl
  endDate _ := .inl rfl
  rules rule hrule := .inl (hread rule hrule).symm
  kept req hreq := by
    rw [hlog] at hreq
    exact absurd hreq List.not_mem_nil

section Tag

variable {server : RuleServer} {rules : List RecurringRule} {rule : RecurringRule} {id : Int}

/-- The PATCH that tags `rule` carries an end date exactly for one that was
read without. -/
theorem endDate_adoptionPatch_read (h : ReadOrTagged s₀ server now rule) :
    (adoptionPatch rule now).endDate =
      if (s₀.rules rule.id).endDate ≤ 0 ∧ 0 < fallbackEndDate (s₀.rules rule.id) now then
        some (fallbackEndDate (s₀.rules rule.id) now)
      else none := by
  have hdates := h.dates
  rw [endDate_adoptionPatch, fallbackEndDate, hdates.1, hdates.2]
  rfl

/-- The end date a tagged rule has on the server afterwards. -/
theorem endDate_send_adoptionPatch (hrule : ReadOrTagged s₀ server now rule) :
    ((server.send answers rule.id (adoptionPatch rule now)).rules rule.id).endDate =
      if (server.answer answers rule.id (adoptionPatch rule now)).outcome.landed = true ∧
          (s₀.rules rule.id).endDate ≤ 0 ∧ 0 < fallbackEndDate (s₀.rules rule.id) now then
        fallbackEndDate (s₀.rules rule.id) now
      else (server.rules rule.id).endDate := by
  rw [RuleServer.endDate_send, endDate_adoptionPatch_read hrule]
  by_cases hlanded : (server.answer answers rule.id (adoptionPatch rule now)).outcome.landed = true
  · simp only [hlanded, if_true, true_and]
    split <;> rfl
  · simp [hlanded]

/-- Sending the tag of a rule that was read without one keeps the dates. -/
theorem adopted_send (h : Adopted s₀ server now rules) (hrule : rule ∈ rules)
    (hunowned : isManagedRuleName (s₀.rules rule.id).name = false) :
    Adopted s₀ (server.send answers rule.id (adoptionPatch rule now)) now rules := by
  have hread := h.rules rule hrule
  have hend := @endDate_send_adoptionPatch answers s₀ now server rule hread
  refine ⟨fun id => ?_, fun id => ?_, fun other hother => ?_, fun req hreq => ?_⟩
  · by_cases hid : id = rule.id
    · rw [hid, RuleServer.startDate_send, ← h.startDate rule.id]
      split <;> rfl
    · rw [RuleServer.rules_send_of_ne _ _ _ _ hid]
      exact h.startDate id
  · by_cases hid : id = rule.id
    · rw [hid, hend]
      split
      · next hgiven => exact .inr ⟨hgiven.2.1, hunowned, rfl⟩
      · exact h.endDate rule.id
    · rw [RuleServer.rules_send_of_ne _ _ _ _ hid]
      exact h.endDate id
  · -- a rule that was tagged before keeps the date it was given
    refine (h.rules other hother).imp_right fun ⟨heq, hnot, hgiven⟩ => ⟨heq, hnot, ?_⟩
    intro hnone hpos
    by_cases hid : other.id = rule.id
    · rw [hid] at hgiven hnone hpos ⊢
      rw [hend]
      split
      · rfl
      · exact hgiven hnone hpos
    · rw [RuleServer.rules_send_of_ne _ _ _ _ hid]
      exact hgiven hnone hpos
  · rw [RuleServer.log_send, List.mem_append, List.mem_singleton] at hreq
    rcases hreq with hreq | rfl
    · exact h.kept req hreq
    · intro d hd
      rw [endDate_adoptionPatch_read hread] at hd
      split at hd
      · next hgiven =>
          obtain rfl := Option.some.inj hd
          have hday : day (s₀.rules rule.id).startDate ≤
              day (fallbackEndDate (s₀.rules rule.id) now) := by
            have := day_mono (Int.le_max_right now (s₀.rules rule.id).startDate)
            rw [fallbackEndDate, day_add]
            omega
          refine ⟨hday, fun hpos => ?_⟩
          rcases h.endDate rule.id with hsame | ⟨-, -, hsame⟩
          · rw [hsame] at hpos
            omega
          · rw [hsame]
      · contradiction

/-- A rule that has just been tagged. -/
theorem readOrTagged_rename (h : Adopted s₀ server now rules) (hrule : rule ∈ rules)
    (hunowned : isManagedRuleName (s₀.rules rule.id).name = false)
    (hok : (server.answer answers rule.id (adoptionPatch rule now)).outcome.isOk = true) :
    ReadOrTagged s₀ (server.send answers rule.id (adoptionPatch rule now)) now
      { rule with name := addManagedRuleMarker rule.name } := by
  have hread := h.rules rule hrule
  refine .inr ⟨?_, hunowned, fun hnone hpos => ?_⟩
  · show { rule with name := addManagedRuleMarker rule.name } =
      { s₀.rules rule.id with name := addManagedRuleMarker rule.name }
    rcases hread with heq | ⟨heq, -, -⟩
    · rw [← heq]
    · exact congrArg (fun r : RecurringRule => { r with name := addManagedRuleMarker rule.name }) heq
  · show ((server.send answers rule.id (adoptionPatch rule now)).rules rule.id).endDate = _
    rw [endDate_send_adoptionPatch hread,
      if_pos ⟨RequestOutcome.landed_of_isOk hok, hnone, hpos⟩]

/-- One pass of the tagging loop over a rule that was read without the tag. -/
theorem adopted_tagRule {st : Tagging} (h : Adopted s₀ st.server now st.rules)
    (hunowned : isManagedRuleName (s₀.rules id).name = false) :
    Adopted s₀ (tagRule answers now st id).server now (tagRule answers now st id).rules ∧
      (tagRule answers now st id).rules.map (·.id) = st.rules.map (·.id) := by
  rw [tagRule]
  split
  · exact ⟨h, rfl⟩
  · split
    · exact ⟨h, rfl⟩
    · next rule hfind =>
        obtain rfl : rule.id = id := by simpa using List.find?_some hfind
        have hrule := List.mem_of_find?_eq_some hfind
        have hsent := @adopted_send answers s₀ now _ _ _ h hrule hunowned
        simp only []
        split
        · next hok =>
            refine ⟨{ hsent with rules := fun other hother => ?_ }, ids_renameRule _ _ _⟩
            rcases mem_renameRule hother with hold | ⟨old, hold, rfl⟩
            · exact hsent.rules other hold
            · obtain rfl := Option.some.inj (hfind.symm.trans hold)
              exact readOrTagged_rename h hrule hunowned hok
        · split
          · exact ⟨hsent, rfl⟩
          · exact ⟨hsent, rfl⟩

/-- The tagging loop. -/
theorem adopted_foldl_tagRule (ids : List Int)
    (hunowned : ∀ id ∈ ids, isManagedRuleName (s₀.rules id).name = false) {st : Tagging}
    (h : Adopted s₀ st.server now st.rules) :
    Adopted s₀ (ids.foldl (tagRule answers now) st).server now
        (ids.foldl (tagRule answers now) st).rules ∧
      (ids.foldl (tagRule answers now) st).rules.map (·.id) = st.rules.map (·.id) := by
  induction ids generalizing st with
  | nil => exact ⟨h, rfl⟩
  | cons id ids ih =>
      have hstep := @adopted_tagRule answers s₀ now _ _ h (hunowned id (List.mem_cons_self ..))
      have hrest := ih (fun i hi => hunowned i (List.mem_cons_of_mem _ hi)) hstep.1
      exact ⟨hrest.1, hrest.2.trans hstep.2⟩

end Tag

/-- **The adoption** keeps the rules' ids, first days and end dates, but for the
end dates it gives. -/
theorem adopted_adoptExistingRecurringRulesOnce {rules : List RecurringRule}
    (recordings : List Recording) (haveRecordings : Bool) (st : RenewalState)
    (hread : ∀ rule ∈ rules, st.server.rules rule.id = rule) (hlog : st.server.log = []) :
    let adopted := adoptExistingRecurringRulesOnce answers rules recordings haveRecordings now st
    Adopted st.server adopted.1.server now adopted.2 ∧
      adopted.2.map (·.id) = rules.map (·.id) := by
  intro adopted
  simp only [adopted, adoptExistingRecurringRulesOnce]
  generalize (if st.adoption.known = true then st.adoption
    else evaluateInitialAdoption rules now) = adoption
  split
  · exact ⟨adopted_read hread hlog, rfl⟩
  · refine adopted_foldl_tagRule _ (fun id hid => ?_) (adopted_read hread hlog)
    obtain ⟨rule, hfind, hname⟩ := unowned_of_mem_toTag hid
    obtain rfl : rule.id = id := by simpa using List.find?_some hfind
    rw [hread rule (List.mem_of_find?_eq_some hfind)]
    exact hname

end Adoption

/-! ## the renewal -/

section Renewal

variable {answers : RuleAnswers} {recordings : List Recording} {haveRecordings : Bool} {now : Int}

section Step

variable (server : RuleServer) (rule : RecurringRule)

/-- One pass of the renewal loop changes no first day, -/
theorem startDate_renewRule (id : Int) :
    ((renewRule answers recordings haveRecordings now server rule).rules id).startDate =
      (server.rules id).startDate := by
  rw [renewRule]
  split
  · exact RuleServer.startDate_send_endDatePatch _ _ _ _ _
  · rfl

/-- touches no other rule, -/
theorem rules_renewRule_of_ne {id : Int} (hne : id ≠ rule.id) :
    (renewRule answers recordings haveRecordings now server rule).rules id = server.rules id := by
  rw [renewRule]
  split
  · exact RuleServer.rules_send_of_ne _ _ _ _ hne
  · rfl

/-- and sends one PATCH if the rule is due. -/
theorem mem_log_renewRule {req : RuleRequest} :
    req ∈ (renewRule answers recordings haveRecordings now server rule).log ↔
      req ∈ server.log ∨ shouldRenewRecurringRule rule recordings haveRecordings now
          recurringRuleWindowDays recurringRuleRenewalSafetyMarginSeconds = true ∧
        req = ⟨rule.id, server.rules rule.id, RuleServer.endDatePatch (now + 30 * 86400)⟩ := by
  rw [renewRule]
  split
  · next hrenew =>
      rw [RuleServer.log_send, List.mem_append, List.mem_singleton]
      exact or_congr_right ⟨fun hreq => ⟨hrenew, hreq⟩, fun hreq => hreq.2⟩
  · next hrenew => simp [hrenew]

end Step

/-- The renewal loop sends one PATCH for each rule that is due, and changes no
first day. -/
theorem foldl_renewRule (rules : List RecurringRule) (server : RuleServer)
    (hids : (rules.map (·.id)).Nodup) :
    let renewed := rules.foldl (renewRule answers recordings haveRecordings now) server
    (∀ id, (renewed.rules id).startDate = (server.rules id).startDate) ∧
      ∀ req, req ∈ renewed.log ↔ req ∈ server.log ∨ ∃ rule ∈ rules,
        shouldRenewRecurringRule rule recordings haveRecordings now recurringRuleWindowDays
          recurringRuleRenewalSafetyMarginSeconds = true ∧
        req = ⟨rule.id, server.rules rule.id, RuleServer.endDatePatch (now + 30 * 86400)⟩ := by
  induction rules generalizing server with
  | nil => simp
  | cons rule rules ih =>
      intro renewed
      rw [List.map_cons, List.nodup_cons] at hids
      obtain ⟨hstart, hlog⟩ := ih (renewRule answers recordings haveRecordings now server rule) hids.2
      refine ⟨fun id => (hstart id).trans (startDate_renewRule server rule id),
        fun req => (hlog req).trans ?_⟩
      rw [mem_log_renewRule, List.exists_mem_cons_iff, or_assoc]
      -- the rules after this one are met as they were
      refine or_congr_right (or_congr_right (exists_congr fun other =>
        and_congr_right fun hother => ?_))
      rw [rules_renewRule_of_ne server rule fun heq => hids.1 (heq ▸ List.mem_map_of_mem hother)]

/-- Whether the cycle gave a rule its end date: it was read without the tag,
and from 1970 on that is enough. -/
def givenEndDate (server : RuleServer) (now : Int) (rule : RecurringRule) : Bool :=
  !isManagedRuleName (server.rules rule.id).name &&
    decide (0 < fallbackEndDate (server.rules rule.id) now)

/-- The renewal of a rule reaches its dates unless the rule had no end date and
starts too late: after the window, or after today when the cycle has just given
it one that counts from its first day. -/
theorem keepsEndDate_renewal_iff {s₀ server : RuleServer} {rules : List RecurringRule}
    {rule after : RecurringRule} (h : Adopted s₀ server now rules) (hrule : rule ∈ rules)
    (hvalid : ValidRule (s₀.rules rule.id))
    (hstart : after.startDate = (s₀.rules rule.id).startDate)
    (hrenew : shouldRenewRecurringRule rule recordings haveRecordings now recurringRuleWindowDays
      recurringRuleRenewalSafetyMarginSeconds = true) :
    KeepsEndDate after ⟨rule.id, server.rules rule.id, RuleServer.endDatePatch (now + 30 * 86400)⟩ ↔
      (rule.endDate ≤ 0 →
        day rule.startDate ≤ day now + if givenEndDate s₀ now rule then 0 else 30) := by
  have hread := h.rules rule hrule
  obtain ⟨hmanaged, hnear⟩ := of_shouldRenewRecurringRule hrenew
  rw [keepsEndDate_iff rfl, hstart, day_add, hread.dates.1, hread.dates.2]
  rw [hread.dates.2] at hnear
  by_cases hnone : (s₀.rules rule.id).endDate ≤ 0
  · simp only [hnone, true_implies]
    by_cases hgiven : givenEndDate s₀ now rule = true
    · have hparts := hgiven
      simp only [givenEndDate, Bool.and_eq_true, Bool.not_eq_true', decide_eq_true_iff] at hparts
      have hend : (server.rules rule.id).endDate = fallbackEndDate (s₀.rules rule.id) now := by
        rcases hread with heq | ⟨-, -, hset⟩
        · rw [heq, hparts.1] at hmanaged
          exact absurd hmanaged Bool.false_ne_true
        · exact hset hnone hparts.2
      have hday : day (fallbackEndDate (s₀.rules rule.id) now) =
          max (day now) (day (s₀.rules rule.id).startDate) + 30 := by
        rw [fallbackEndDate, day_add, day_max]
      rw [if_pos hgiven, hend, hday]
      simp only [hparts.2, true_implies]
      omega
    · have hend : ¬ 0 < (server.rules rule.id).endDate := by
        rcases h.endDate rule.id with hsame | ⟨-, hnot, hsame⟩
        · omega
        · simp only [givenEndDate, hnot, Bool.not_false, Bool.true_and, decide_eq_true_iff] at hgiven
          omega
      rw [if_neg hgiven]
      simp only [hend, false_implies, and_true]
  · -- an end date that was read is still there, and after the first day
    have hend : (server.rules rule.id).endDate = (s₀.rules rule.id).endDate :=
      (h.endDate rule.id).resolve_right fun hgiven => hnone hgiven.1
    have hday := hvalid (by omega)
    have hwindow := day_mono (Int.le_of_lt hnear)
    rw [day_add] at hwindow
    have hkept : day (s₀.rules rule.id).startDate ≤ day now + 30 ∧
        (0 < (server.rules rule.id).endDate → day (server.rules rule.id).endDate ≤ day now + 30) := by
      rw [hend]
      exact ⟨by omega, fun _ => by omega⟩
    exact ⟨fun _ h => absurd h hnone, fun _ => hkept⟩

/-- The rules as the adoption of a cycle leaves them. -/
def adoptedRules (answers : RuleAnswers) (rules : List RecurringRule)
    (readRecordings : Option (List Recording)) (now : Int) (st : RenewalState) :
    List RecurringRule :=
  (adoptExistingRecurringRulesOnce answers rules (readRecordings.getD []) readRecordings.isSome now
    st).2

/-- When every end date a cycle sends is kept: each rule it renews that has no
end date starts soon enough. -/
def RenewalsReach (answers : RuleAnswers) (rules : List RecurringRule)
    (readRecordings : Option (List Recording)) (now : Int) (st : RenewalState) : Prop :=
  ∀ rule ∈ adoptedRules answers rules readRecordings now st,
    shouldRenewRecurringRule rule (readRecordings.getD []) readRecordings.isSome now
        recurringRuleWindowDays recurringRuleRenewalSafetyMarginSeconds = true →
      rule.endDate ≤ 0 →
        day rule.startDate ≤ day now + if givenEndDate st.server now rule then 0 else 30

instance (rules : List RecurringRule) (readRecordings : Option (List Recording))
    (st : RenewalState) : Decidable (RenewalsReach answers rules readRecordings now st) :=
  inferInstanceAs (Decidable (∀ rule ∈ adoptedRules answers rules readRecordings now st, _ → _ → _))

/-- **The end dates a cycle sends.** -/
theorem endDatesKept_renewRecurringRules_iff {rules : List RecurringRule}
    {readRecordings : Option (List Recording)} {st : RenewalState} (hlog : st.server.log = [])
    (hrules : ∀ id, ValidRule (st.server.rules id))
    (hread : ∀ rule ∈ rules, st.server.rules rule.id = rule)
    (hids : (rules.map (·.id)).Nodup) :
    (renewRecurringRules answers (some rules) readRecordings now st).server.EndDatesKept ↔
      RenewalsReach answers rules readRecordings now st := by
  obtain ⟨hadopted, hsame⟩ := @adopted_adoptExistingRecurringRulesOnce answers now rules
    (readRecordings.getD []) readRecordings.isSome st hread hlog
  have hnodup : ((adoptedRules answers rules readRecordings now st).map (·.id)).Nodup := by
    rw [adoptedRules, hsame]
    exact hids
  obtain ⟨hstart, hmem⟩ := @foldl_renewRule answers (readRecordings.getD []) readRecordings.isSome
    now _ (adoptExistingRecurringRulesOnce answers rules (readRecordings.getD [])
      readRecordings.isSome now st).1.server hnodup
  have hdates := fun id => (hstart id).trans (hadopted.startDate id)
  constructor
  · intro h rule hrule hrenew
    have hkept := h _ ((hmem _).mpr (.inr ⟨rule, hrule, hrenew, rfl⟩))
    exact (keepsEndDate_renewal_iff hadopted hrule (hrules _) (hdates _) hrenew).mp hkept
  · intro h req hreq
    rcases (hmem req).mp hreq with hold | ⟨rule, hrule, hrenew, rfl⟩
    · intro d hd
      have hkept := hadopted.kept req hold d hd
      exact ⟨(congrArg day (hdates req.ruleId)).trans_le hkept.1, hkept.2⟩
    · exact (keepsEndDate_renewal_iff hadopted hrule (hrules _) (hdates _) hrenew).mpr
        (h rule hrule hrenew)

end Renewal

end DispatcharrPvr
