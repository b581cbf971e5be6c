import DispatcharrPvr.RecurringRuleUtil.RoundTrip
import DispatcharrPvr.UpdateTimer.Stages

/-!
# UpdateTimer.Unchanged

When a save sends nothing, first for any save (`updateTimer_sends_nothing_iff`)
and then for one that hands back exactly what `GetTimers` reported.  Against
the report the difference is empty for the fields Kodi shows faithfully, but
three other decisions write as well: the extension ahead of the first day, the
end date for a rule that has none, and the extension of a rule that was
disabled elsewhere.  `updateTimer_unchanged_iff` says exactly when none does.
-/

namespace DispatcharrPvr

open Containers

namespace RecurringUpdate

/-! ## any save -/

section Save

variable (u : RecurringUpdate) (answers : RuleAnswers)

/-- The timer hands back the fields of `b`, which the save compares with. -/
structure AsShown (fields : ComputedRecurringRuleFields) (b : RecurringRuleFields) : Prop where
  channel : u.timer.clientChannelUid = b.channelId
  name : resolveRecurringRuleNameForUpdate u.timer.title u.cachedName u.ruleId =
    stripManagedRuleMarker b.name
  weekdays : ∀ d, d ∈ fields.daysOfWeek ↔ d ∈ b.daysOfWeek
  startTime : u.reported.map (·.start) = some u.timer.startTime ∨
    sameTimeOfDay fields.startSeconds b.startTimeOfDaySeconds = true
  endTime : u.reported.map (·.stop) = some u.timer.endTime ∨
    sameTimeOfDay fields.endSeconds b.endTimeOfDaySeconds = true
  startDate : sameCalendarDay fields.startDate b.startDate = true
  enabled : u.enabled = b.enabled

theorem sameTimeOfDay_self (t : Int) : sameTimeOfDay t t = true := by simp [sameTimeOfDay]

theorem sameCalendarDay_self (t : Int) : sameCalendarDay t t = true := by simp [sameCalendarDay]

/-- A time is not sent when it was handed back as it was shown, or is the same
time of day. -/
theorem sameTimeOfDay_ite {c : Prop} [Decidable c] {stored derived : Int} :
    sameTimeOfDay (if c then stored else derived) stored = true ↔
      c ∨ sameTimeOfDay derived stored = true := by
  by_cases hc : c
  · simp [hc, sameTimeOfDay_self]
  · simp [hc]

/-- A difference is empty when no field differs. -/
theorem isEmpty_computeRecurringRuleEditPatch_iff {b edited : RecurringRuleFields} :
    (computeRecurringRuleEditPatch (some b) edited).isEmpty = true ↔
      edited.channelId = b.channelId ∧ edited.name = b.name ∧
        (∀ d, d ∈ edited.daysOfWeek ↔ d ∈ b.daysOfWeek) ∧
        sameTimeOfDay edited.startTimeOfDaySeconds b.startTimeOfDaySeconds = true ∧
        sameTimeOfDay edited.endTimeOfDaySeconds b.endTimeOfDaySeconds = true ∧
        sameCalendarDay edited.startDate b.startDate = true ∧ edited.enabled = b.enabled := by
  rw [← sortUnique_eq_iff]
  simp [computeRecurringRuleEditPatch, RecurringRuleEditPatch.isEmpty, and_assoc]

/-- The difference is empty exactly when there is a rule to compare with and
the timer shows it. -/
theorem isEmpty_editPatch_iff {fields : ComputedRecurringRuleFields} :
    (u.editPatch fields).isEmpty = true ↔ ∃ b, u.baselineRule = some b ∧ u.AsShown fields b := by
  have hname : (u.editPatch fields).isEmpty =
      (computeRecurringRuleEditPatch u.baselineFields (u.editedFields fields)).isEmpty := by
    simp [editPatch, RecurringRuleEditPatch.isEmpty]
  rw [hname]
  cases hbase : u.baselineRule with
  | none =>
      simp [baselineFields, hbase, computeRecurringRuleEditPatch, RecurringRuleEditPatch.isEmpty]
  | some b =>
      have hfields : u.baselineFields = some { b with name := stripManagedRuleMarker b.name } := by
        rw [baselineFields, hbase]; rfl
      have htimes : u.times fields =
          (if u.reported.map (·.start) = some u.timer.startTime then b.startTimeOfDaySeconds
            else fields.startSeconds,
          if u.reported.map (·.stop) = some u.timer.endTime then b.endTimeOfDaySeconds
            else fields.endSeconds) := by
        rw [times, hfields]; rfl
      rw [hfields, isEmpty_computeRecurringRuleEditPatch_iff]
      simp only [editedFields, htimes, sameTimeOfDay_ite]
      constructor
      · rintro ⟨hchannel, hname, hdays, hstart, hend, hdate, henabled⟩
        exact ⟨b, rfl, hchannel, hname, hdays, hstart, hend, hdate, henabled⟩
      · rintro ⟨b', hb', h⟩
        obtain rfl := Option.some.inj hb'
        exact ⟨h.channel, h.name, h.weekdays, h.startTime, h.endTime, h.startDate, h.enabled⟩

/-! ## a save that sends nothing -/

/-- When a save sends nothing, given the timer's fields. -/
structure SendsNothing (fields : ComputedRecurringRuleFields) (now : Int) : Prop where
  /-- The rule still exists. -/
  found : u.fresh ≠ .gone
  /-- A weekday is selected. -/
  selected : fields.daysOfWeek ≠ []
  /-- The timer shows the rule it is compared with. -/
  asShown : ∃ b, u.baselineRule = some b ∧ u.AsShown fields b
  /-- The end date, as far as it is known, is after the first day. -/
  endDate : ¬ u.ExtendsForFirstDay fields.startDate u.cachedEndDate
  /-- There is one, before a window from 1970 at least. -/
  bounded : u.haveRuleEndDate = true → u.cachedEndDate ≤ 0 →
    max now fields.startDate + 30 * 86400 ≤ 0
  /-- Nobody disabled the rule meanwhile with the end date near. -/
  enabled : ¬ u.ExtendsOnEnable now u.cachedEndDate

variable (D K : Int → Int) (now : Int) (server : RuleServer)

/-- **When a save sends nothing**: no PATCH, no extension, and success, exactly
under `SendsNothing`. -/
theorem updateTimer_sends_nothing_iff :
    ((u.updateTimer answers D K now server).server.log = server.log ∧
        (u.updateTimer answers D K now server).ok = true) ↔
      u.SendsNothing (u.computedFields D K now) now := by
  have hokdays : (u.computedFields D K now).ok = !(u.computedFields D K now).daysOfWeek.isEmpty :=
    (computeRecurringRuleFields_eq ..).2.1
  by_cases hreach : u.fresh ≠ .gone ∧ (u.computedFields D K now).ok = true
  case neg =>
    have hfails : u.fresh = .gone ∨ (u.computedFields D K now).ok = false := by
      by_cases hfound : u.fresh = .gone
      · exact .inl hfound
      · exact .inr (by simpa [hfound] using hreach)
    rw [(updateTimer_of_not_reached u answers D K now server hfails).1]
    constructor
    · intro h
      exact absurd h.2 Bool.false_ne_true
    · intro h
      rw [hokdays] at hreach
      exact absurd ⟨h.found, by simpa using h.selected⟩ hreach
  obtain ⟨hfound, hok⟩ := hreach
  have hselected : (u.computedFields D K now).daysOfWeek ≠ [] := by
    rw [hokdays] at hok
    simpa using hok
  rw [updateTimer_eq u answers D K now server hfound hok]
  have hquiet := @stages_quiet_iff u answers (u.computedFields D K now) now
    { server, cachedEndDate := u.cachedEndDate, ok := true } rfl
  rw [isEmpty_patch_iff, isEmpty_editPatch_iff, openEndedFallback_pos_iff] at hquiet
  refine hquiet.trans ⟨fun ⟨h₁, ⟨hshown, hfallback⟩, h₃⟩ => ?_, fun h => ?_⟩
  · refine ⟨hfound, hselected, hshown, h₁, fun hhave hle => ?_, h₃⟩
    exact Int.not_lt.mp fun hpos => hfallback ⟨hhave, hle, hpos⟩
  · refine ⟨h.endDate, ⟨h.asShown, fun ⟨hhave, hle, hpos⟩ => ?_⟩, h.enabled⟩
    have := h.bounded hhave hle
    omega

end Save

/-! ## a save of what was reported -/

section Unchanged

variable (D K : Int → Int) (reportNow now : Int) (rule : RecurringRule)
  (cachedRules : List RecurringRule) (reports : ReportedRecurringRuleHistory) (fresh : FreshRead)

/-- The save of a timer as `GetTimers` reported it. -/
def unchanged : RecurringUpdate where
  ruleId := rule.id
  timer := reportedTimer D K reportNow rule
  cachedRules := cachedRules
  reports := reports
  fresh := fresh

/-- A reported state hands back whether the rule was enabled. -/
theorem enabled_unchanged :
    (unchanged D K reportNow rule cachedRules reports fresh).enabled = rule.enabled := by
  simp only [enabled, unchanged, reportedTimer]
  cases rule.enabled
  · rfl
  · simp only [Bool.not_true, Bool.false_eq_true, if_false]
    split <;> rfl

/-- A title other than the placeholder is the rule's name. -/
theorem title_reportedTimer
    (h : (reportedTimer D K reportNow rule).title ≠ recurringRulePlaceholder rule.id) :
    (reportedTimer D K reportNow rule).title = stripManagedRuleMarker rule.name := by
  simp only [reportedTimer] at h ⊢
  split
  · next hempty => rw [if_pos hempty] at h; exact absurd rfl h
  · rfl

/-- What Kodi cannot hand back of a rule it was shown: a channel that is not
one, the weekdays when the way back moves them, and a name that reads like the
placeholder or is empty, which is taken from the cache. -/
structure ReadsBack (u : RecurringUpdate) (fields : ComputedRecurringRuleFields)
    (rule : RecurringRule) : Prop where
  channel : 0 < rule.channelId ∨ rule.channelId = pvrChannelInvalidUid
  name : u.timer.title = recurringRulePlaceholder rule.id →
    u.cachedName = stripManagedRuleMarker rule.name
  weekdays : ∀ d, d ∈ fields.daysOfWeek ↔ d ∈ rule.daysOfWeek

/-- Against the report itself the timer shows the rule as far as it can be read
back. -/
theorem asShown_reportOf_iff {fields : ComputedRecurringRuleFields}
    (hfirst : fields.startDate = rule.startDate)
    (hkept : (unchanged D K reportNow rule cachedRules reports fresh).reported =
      some (reportOf D K rule)) :
    (unchanged D K reportNow rule cachedRules reports fresh).AsShown fields
        (editableFieldsOf rule) ↔
      ReadsBack (unchanged D K reportNow rule cachedRules reports fresh) fields rule := by
  have hchannel : ((reportedTimer D K reportNow rule).clientChannelUid = rule.channelId) ↔
      (0 < rule.channelId ∨ rule.channelId = pvrChannelInvalidUid) := by
    simp only [reportedTimer, pvrChannelInvalidUid]
    split <;> omega
  constructor
  · intro h
    refine ⟨hchannel.mp h.channel, fun htitle => ?_, h.weekdays⟩
    have hname := h.name
    rw [resolveRecurringRuleNameForUpdate] at hname
    exact (if_pos htitle).symm.trans hname
  · intro h
    refine ⟨hchannel.mpr h.channel, ?_, h.weekdays, .inl ?_, .inl ?_, ?_, ?_⟩
    · show resolveRecurringRuleNameForUpdate (reportedTimer D K reportNow rule).title _ rule.id =
        stripManagedRuleMarker rule.name
      rw [resolveRecurringRuleNameForUpdate]
      split
      · next htitle => exact h.name htitle
      · next htitle => exact title_reportedTimer D K reportNow rule htitle
    · rw [hkept]; rfl
    · rw [hkept]; rfl
    · rw [hfirst]; exact sameCalendarDay_self _
    · exact enabled_unchanged D K reportNow rule cachedRules reports fresh

/-- The weekdays come back with the first day, for a rule whose date is a
midnight and a Kodi zone whose offsets stay within twelve hours of each other. -/
theorem weekdays_of_firstDay (hdate : rule.startDate % 86400 = 0)
    (hdays : ∀ d ∈ rule.daysOfWeek, 0 ≤ d ∧ d ≤ 6) (hK : ∀ a b, K a - K b < 720)
    (hpos : 0 < (reportedTimer D K reportNow rule).firstDay)
    (hfirst : ((unchanged D K reportNow rule cachedRules reports fresh).computedFields D K
      now).startDate = rule.startDate) (d : Int) :
    d ∈ ((unchanged D K reportNow rule cachedRules reports fresh).computedFields D K
      now).daysOfWeek ↔ d ∈ rule.daysOfWeek := by
  let shown := computeRecurringRuleDisplayTimes rule.startDate rule.startTimeOfDaySeconds
    rule.endTimeOfDaySeconds D K
  obtain ⟨hdaysOut, -, -, -, hdateOut⟩ :=
    computeRecurringRuleFields_eq shown.startTime shown.endTime shown.firstDay
      (reportedTimer D K reportNow rule).weekdays (D shown.startTime) K now
  have hnoon := @displayTimes_firstDay rule.startDate rule.startTimeOfDaySeconds
    rule.endTimeOfDaySeconds D K hK
  have hsaved := hdateOut.symm.trans hfirst
  rw [if_pos (by exact hpos), utcMidnight_eq] at hsaved
  -- the first day fixes the shift of the way back
  have hshift : shiftAt shown.startTime (D shown.startTime) K = shown.dayShift := by
    simp only [shown] at hsaved ⊢
    omega
  show d ∈ (computeRecurringRuleFields shown.startTime shown.endTime shown.firstDay
      (reportedTimer D K reportNow rule).weekdays (D shown.startTime) K now).daysOfWeek ↔ _
  rw [hdaysOut, hshift]
  exact mem_daysOfWeek_roundTrip hdays shown.dayShift d

/-- When the save of an unchanged timer sends nothing. -/
structure UnchangedSendsNothing (u : RecurringUpdate) (fields : ComputedRecurringRuleFields)
    (report : ReportedRecurringRule) (rule : RecurringRule) (now : Int) : Prop where
  /-- The rule still exists. -/
  found : u.fresh ≠ .gone
  /-- The mask handed back selects a weekday. -/
  selected : fields.daysOfWeek ≠ []
  /-- Compared with the report it was filled from, the rule reads back. -/
  readsBack : u.reported = some report → ReadsBack u fields rule
  /-- When that report is no longer kept, what stands in for it shows the same. -/
  asShown : u.reported ≠ some report → ∃ b, u.baselineRule = some b ∧ u.AsShown fields b
  /-- The end date, as far as it is known, is after the rule's first day. -/
  endDate : ¬ u.ExtendsForFirstDay rule.startDate u.cachedEndDate
  /-- There is one. -/
  bounded : u.haveRuleEndDate = true → u.cachedEndDate ≤ 0 →
    max now rule.startDate + 30 * 86400 ≤ 0
  /-- Nobody disabled the rule meanwhile with the end date near. -/
  enabled : ¬ u.ExtendsOnEnable now u.cachedEndDate

/-- **When an unchanged save sends nothing**: no PATCH, no extension, and
success, exactly under `UnchangedSendsNothing`. -/
theorem updateTimer_unchanged_iff (answers : RuleAnswers) (server : RuleServer)
    (hfirst : ((unchanged D K reportNow rule cachedRules reports fresh).computedFields D K
      now).startDate = rule.startDate) :
    let u := unchanged D K reportNow rule cachedRules reports fresh
    let result := u.updateTimer answers D K now server
    (result.server.log = server.log ∧ result.ok = true) ↔
      UnchangedSendsNothing u (u.computedFields D K now) (reportOf D K rule) rule now := by
  intro u result
  rw [updateTimer_sends_nothing_iff u answers D K now server]
  have hshown : (∃ b, u.baselineRule = some b ∧ u.AsShown (u.computedFields D K now) b) ↔
      (u.reported = some (reportOf D K rule) → ReadsBack u (u.computedFields D K now) rule) ∧
        (u.reported ≠ some (reportOf D K rule) →
          ∃ b, u.baselineRule = some b ∧ u.AsShown (u.computedFields D K now) b) := by
    by_cases hkept : u.reported = some (reportOf D K rule)
    · have hbase : u.baselineRule = some (editableFieldsOf rule) := by
        rw [baselineRule, hkept]; rfl
      have hiff := asShown_reportOf_iff D K reportNow rule cachedRules reports fresh hfirst hkept
      simp only [hbase, hkept, Option.some.injEq, exists_eq_left', true_implies, ne_eq,
        not_true_eq_false, false_implies, and_true]
      exact hiff
    · simp [hkept]
  constructor
  · intro h
    have hboth := hshown.mp h.asShown
    exact ⟨h.found, h.selected, hboth.1, hboth.2, hfirst ▸ h.endDate, hfirst ▸ h.bounded, h.enabled⟩
  · intro h
    exact ⟨h.found, h.selected, hshown.mpr ⟨h.readsBack, h.asShown⟩, hfirst.symm ▸ h.endDate,
      hfirst.symm ▸ h.bounded, h.enabled⟩

end Unchanged

/-- A rule on Fridays from 4 October 2024, with `endDate` as its last day. -/
def fridayRule (endDate : Int) : RecurringRule where
  id := 7
  channelId := 4
  name := ascii "News"
  daysOfWeek := [4]
  startTimeOfDaySeconds := 72000
  endTimeOfDaySeconds := 75600
  startDate := 1728000000
  endDate := endDate
  enabled := true

/-- The report of that rule alone, with everyone on UTC. -/
def fridayReports (endDate : Int) : ReportedRecurringRuleHistory :=
  ReportedRecurringRuleHistory.record (fun _ => none) fun ruleId =>
    if ruleId = 7 then some (reportOf (fun _ => 0) (fun _ => 0) (fridayRule endDate)) else none

/-- The save of that rule as it was reported on 3 October. -/
def fridaySave (endDate : Int) : RecurringUpdate :=
  unchanged (fun _ => 0) (fun _ => 0) 1727950000 (fridayRule endDate) [fridayRule endDate]
    (fridayReports endDate) (.rule (fridayRule endDate))

/-- With three weeks to run, the save of 5 October sends nothing. -/
theorem updateTimer_unchanged_iff_friday :
    let result := (fridaySave 1729814400).updateTimer (fun _ _ _ => ⟨.ok, 200⟩) (fun _ => 0)
      (fun _ => 0) 1728130000 { rules := fun _ => fridayRule 1729814400 }
    result.server.log = [] ∧ result.ok = true := by
  have hsave := updateTimer_unchanged_iff (fun _ => 0) (fun _ => 0) 1727950000 1728130000
    (fridayRule 1729814400) [fridayRule 1729814400] (fridayReports 1729814400) (.rule (fridayRule 1729814400))
    (fun _ _ _ => ⟨.ok, 200⟩) { rules := fun _ => fridayRule 1729814400 } (by decide)
  have hkept : (fridaySave 1729814400).reported =
      some (reportOf (fun _ => 0) (fun _ => 0) (fridayRule 1729814400)) := by
    decide +kernel
  have hsends : UnchangedSendsNothing (fridaySave 1729814400)
      ((fridaySave 1729814400).computedFields (fun _ => 0) (fun _ => 0) 1728130000)
      (reportOf (fun _ => 0) (fun _ => 0) (fridayRule 1729814400)) (fridayRule 1729814400)
      1728130000 :=
    { found := by decide
      selected := by decide
      readsBack := fun _ => ⟨by decide, by decide, sortUnique_eq_iff.mp (by decide)⟩
      asShown := fun hlost => absurd hkept hlost
      endDate := by decide
      bounded := by decide
      enabled := by decide }
  unfold fridaySave
  exact hsave.mpr hsends

/-- A rule of a single day is saved as it was reported, and a PATCH moves its
end date thirty days on; so does the save of a rule that has no end date. -/
theorem updateTimer_unchanged_extends :
    let save (endDate : Int) := (fridaySave endDate).updateTimer (fun _ _ _ => ⟨.ok, 200⟩)
      (fun _ => 0) (fun _ => 0) 1728130000 { rules := fun _ => fridayRule endDate }
    ((fridaySave 1728000000).computedFields (fun _ => 0) (fun _ => 0) 1728130000).startDate =
        1728000000 ∧
      (save 1728000000).server.log.map (·.patch.endDate) = [some 1730592000] ∧
      (save 0).server.log.map (·.patch.endDate) = [some 1730722000] := by
  decide +kernel

end RecurringUpdate

end DispatcharrPvr
