import DispatcharrPvr.EndDates
import DispatcharrPvr.UpdateTimer.Stages

/-!
# UpdateTimer.EndDates

The end dates a save sends: ahead of a moved first day, with the PATCH of a
rule that has none, and after a rule is enabled again.
-/

namespace DispatcharrPvr

namespace RecurringUpdate

section Save

variable (u : RecurringUpdate) (answers : RuleAnswers) (fields : ComputedRecurringRuleFields)
  (now : Int) (server : RuleServer)

/-! ## the states between the stages -/

/-- After the extension ahead of the first day. -/
def afterFirstDay : UpdateState :=
  u.extendForFirstDay answers fields.startDate { server, cachedEndDate := u.cachedEndDate, ok := true }

/-- The PATCH that follows it. -/
def sentPatch : RecurringRuleEditPatch :=
  u.patch fields (u.afterFirstDay answers fields server).cachedEndDate now

/-- After the PATCH. -/
def afterPatch : UpdateState :=
  u.sendPatch answers (u.sentPatch answers fields now server) (u.afterFirstDay answers fields server)

/-- Whether the extension ahead of the first day is sent and ends with an
outcome of which `p` holds. -/
def extendsForFirstDayWith (p : RequestOutcome → Bool) : Bool :=
  decide (u.ExtendsForFirstDay fields.startDate u.cachedEndDate) &&
    p (server.answer answers u.ruleId
      (RuleServer.endDatePatch (fields.startDate + 30 * 86400))).outcome

/-- Whether the PATCH brings the new first day to the server. -/
def startDateLands : Bool :=
  (u.sentPatch answers fields now server).startDate.isSome &&
    ((u.afterFirstDay answers fields server).server.answer answers u.ruleId
      (u.sentPatch answers fields now server)).outcome.landed

/-- The rule's first day once the save is done. -/
def startDateAfter : Int :=
  if u.startDateLands answers fields now server then fields.startDate
  else (server.rules u.ruleId).startDate

/-! ## what a patch carries -/

theorem endDate_editPatch : (u.editPatch fields).endDate = none := by
  simp only [editPatch, computeRecurringRuleEditPatch]
  split <;> rfl

theorem startDate_editPatch :
    (u.editPatch fields).startDate = none ∨ (u.editPatch fields).startDate = some fields.startDate := by
  simp only [editPatch, computeRecurringRuleEditPatch, editedFields]
  split
  · exact .inr rfl
  · exact (ite_eq_or_eq _ _ _).symm

theorem endDate_patch (cachedEndDate : Int) :
    (u.patch fields cachedEndDate now).endDate =
      if 0 < u.openEndedFallback fields.startDate cachedEndDate now then
        some (u.openEndedFallback fields.startDate cachedEndDate now)
      else none := by
  simp only [patch]
  split
  · rfl
  · exact u.endDate_editPatch fields

theorem startDate_patch (cachedEndDate : Int) :
    (u.patch fields cachedEndDate now).startDate = (u.editPatch fields).startDate := by
  simp only [patch]
  split <;> rfl

/-- The end date of a rule that has none reaches thirty days past its first
day. -/
theorem openEndedFallback_eq {startDate cachedEndDate now : Int}
    (h : 0 < u.openEndedFallback startDate cachedEndDate now) :
    cachedEndDate ≤ 0 ∧
      u.openEndedFallback startDate cachedEndDate now = max now startDate + 30 * 86400 := by
  obtain ⟨hhave, hnone, -⟩ := u.openEndedFallback_pos_iff.mp h
  refine ⟨hnone, ?_⟩
  rw [openEndedFallback, if_pos hhave, computeEndDateForOpenEndedRuleEdit, if_neg (by omega)]
  rfl

/-! ## the requests of each stage -/

theorem mem_log_extendForFirstDay {startDate : Int} {st : UpdateState} {req : RuleRequest} :
    req ∈ (u.extendForFirstDay answers startDate st).server.log ↔
      req ∈ st.server.log ∨ u.ExtendsForFirstDay startDate st.cachedEndDate ∧
        req = ⟨u.ruleId, st.server.rules u.ruleId,
          RuleServer.endDatePatch (startDate + 30 * 86400)⟩ := by
  by_cases h : u.ExtendsForFirstDay startDate st.cachedEndDate
  · rw [extendForFirstDay_of u answers h]
    simp [h]
  · rw [extendForFirstDay_of_not u answers h]
    simp [h]

theorem mem_log_sendPatch {patch : RecurringRuleEditPatch} {st : UpdateState} {req : RuleRequest} :
    req ∈ (u.sendPatch answers patch st).server.log ↔
      req ∈ st.server.log ∨ patch.isEmpty = false ∧
        req = ⟨u.ruleId, st.server.rules u.ruleId, patch⟩ := by
  rw [sendPatch]
  split
  · next h => simp [h]
  · next h => simp [h]

theorem mem_log_extendOnEnable {st : UpdateState} {req : RuleRequest} :
    req ∈ (u.extendOnEnable answers now st).server.log ↔
      req ∈ st.server.log ∨ (st.ok = true ∧ u.ExtendsOnEnable now st.cachedEndDate) ∧
        req = ⟨u.ruleId, st.server.rules u.ruleId,
          RuleServer.endDatePatch (now + 30 * 86400)⟩ := by
  by_cases h : st.ok = true ∧ u.ExtendsOnEnable now st.cachedEndDate
  · rw [extendOnEnable_of u answers h.1 h.2]
    simp [h]
  · rw [extendOnEnable_of_not u answers h]
    simp [h]

/-! ## the rule and the known end date between the stages -/

/-- The end date the save works from after the first extension. -/
def knownEndDate : Int :=
  if u.extendsForFirstDayWith answers fields server RequestOutcome.isOk then
    fields.startDate + 30 * 86400
  else u.cachedEndDate

/-- The rule's end date on the server after the first extension. -/
def serverEndDate : Int :=
  if u.extendsForFirstDayWith answers fields server RequestOutcome.landed then
    fields.startDate + 30 * 86400
  else (server.rules u.ruleId).endDate

theorem cachedEndDate_afterFirstDay :
    (u.afterFirstDay answers fields server).cachedEndDate = u.knownEndDate answers fields server := by
  rw [afterFirstDay, knownEndDate, extendsForFirstDayWith]
  by_cases h : u.ExtendsForFirstDay fields.startDate u.cachedEndDate
  · rw [extendForFirstDay_of u answers h]
    simp [h]
  · rw [extendForFirstDay_of_not u answers h]
    simp [h]

theorem endDate_afterFirstDay :
    ((u.afterFirstDay answers fields server).server.rules u.ruleId).endDate =
      u.serverEndDate answers fields server := by
  rw [afterFirstDay, serverEndDate, extendsForFirstDayWith]
  by_cases h : u.ExtendsForFirstDay fields.startDate u.cachedEndDate
  · rw [extendForFirstDay_of u answers h]
    simp only [RuleServer.endDate_send, h, decide_true, Bool.true_and]
    rfl
  · rw [extendForFirstDay_of_not u answers h]
    simp [h]

theorem startDate_afterFirstDay :
    ((u.afterFirstDay answers fields server).server.rules u.ruleId).startDate =
      (server.rules u.ruleId).startDate := by
  rw [afterFirstDay]
  by_cases h : u.ExtendsForFirstDay fields.startDate u.cachedEndDate
  · rw [extendForFirstDay_of u answers h]
    simp
  · rw [extendForFirstDay_of_not u answers h]

/-- An extended rule has a known end date. -/
theorem knownEndDate_pos (h : u.ExtendsForFirstDay fields.startDate u.cachedEndDate) :
    0 < u.knownEndDate answers fields server := by
  have hpos := h.2.1
  have hle := h.2.2
  rw [knownEndDate]
  split <;> omega

/-- Without an extension nothing has happened yet. -/
theorem afterFirstDay_of_not (h : ¬ u.ExtendsForFirstDay fields.startDate u.cachedEndDate) :
    u.afterFirstDay answers fields server =
      { server, cachedEndDate := u.cachedEndDate, ok := true } :=
  extendForFirstDay_of_not u answers h

theorem startDate_afterPatch :
    ((u.afterPatch answers fields now server).server.rules u.ruleId).startDate =
      u.startDateAfter answers fields now server := by
  have hstart := u.startDate_patch fields now (u.afterFirstDay answers fields server).cachedEndDate
  rw [afterPatch, sendPatch, startDateAfter, startDateLands]
  split
  · next hempty =>
      have hnone : (u.sentPatch answers fields now server).startDate = none := by
        simp only [RecurringRuleEditPatch.isEmpty, Bool.and_eq_true, Option.isNone_iff_eq_none]
          at hempty
        exact hempty.1.1.2
      rw [hnone]
      simpa using u.startDate_afterFirstDay answers fields server
  · rw [RuleServer.startDate_send, startDate_afterFirstDay]
    have hpatch : (u.sentPatch answers fields now server).startDate = none ∨
        (u.sentPatch answers fields now server).startDate = some fields.startDate := by
      rw [sentPatch, hstart]
      exact u.startDate_editPatch fields
    cases hpatch with
    | inl hnone => simp [hnone]
    | inr hsome => simp [hsome]

/-- A PATCH without an end date leaves the rule's alone, and the known one. -/
theorem afterPatch_of_endDate_none
    (h : (u.sentPatch answers fields now server).endDate = none) :
    ((u.afterPatch answers fields now server).server.rules u.ruleId).endDate =
        u.serverEndDate answers fields server ∧
      (u.afterPatch answers fields now server).cachedEndDate =
        u.knownEndDate answers fields server := by
  rw [← endDate_afterFirstDay, ← cachedEndDate_afterFirstDay, afterPatch, sendPatch]
  split
  · exact ⟨rfl, rfl⟩
  · rw [RuleServer.endDate_send, h]
    simp

/-- The PATCH carries an end date exactly for a rule known to have none. -/
theorem endDate_sentPatch :
    (u.sentPatch answers fields now server).endDate =
      if 0 < u.openEndedFallback fields.startDate u.cachedEndDate now then
        some (max now fields.startDate + 30 * 86400)
      else none := by
  rw [sentPatch, endDate_patch, cachedEndDate_afterFirstDay]
  by_cases hext : u.ExtendsForFirstDay fields.startDate u.cachedEndDate
  · have hnone : ∀ e, 0 < e → ¬ 0 < u.openEndedFallback fields.startDate e now := by
      intro e he hpos
      have := (u.openEndedFallback_eq hpos).1
      omega
    rw [if_neg (hnone _ (u.knownEndDate_pos answers fields server hext)),
      if_neg (hnone _ hext.2.1)]
  · have hknown : u.knownEndDate answers fields server = u.cachedEndDate := by
      rw [knownEndDate, extendsForFirstDayWith]
      simp [hext]
    rw [hknown]
    split
    · next hpos => rw [(u.openEndedFallback_eq hpos).2]
    · rfl

/-- Where the end date is known to be set, the PATCH carries none. -/
theorem endDate_sentPatch_of_knownEndDate_pos
    (h : 0 < u.knownEndDate answers fields server) :
    (u.sentPatch answers fields now server).endDate = none := by
  rw [endDate_sentPatch, if_neg]
  intro hpos
  have hnone := (u.openEndedFallback_eq hpos).1
  rw [knownEndDate] at h
  split at h
  · next hext =>
      rw [extendsForFirstDayWith, Bool.and_eq_true, decide_eq_true_iff] at hext
      have := hext.1.2.1
      omega
  · omega

/-! ## what has to hold of each request -/

/-- The dates the rule ends up with respect an end date `d` sent over the
server's own. -/
def Reaches (serverEndDate d : Int) : Prop :=
  day (u.startDateAfter answers fields now server) ≤ day d ∧
    (0 < serverEndDate → day serverEndDate ≤ day d)

/-- Every end date the save sends, on whatever it knew, reaches the rule's
dates on the server. -/
structure EachReaches : Prop where
  firstDay : u.ExtendsForFirstDay fields.startDate u.cachedEndDate →
    u.Reaches answers fields now server (server.rules u.ruleId).endDate
      (fields.startDate + 30 * 86400)
  openEnded : 0 < u.openEndedFallback fields.startDate u.cachedEndDate now →
    u.Reaches answers fields now server (server.rules u.ruleId).endDate
      (max now fields.startDate + 30 * 86400)
  enabled : (u.afterPatch answers fields now server).ok = true →
    u.ExtendsOnEnable now (u.knownEndDate answers fields server) →
      u.Reaches answers fields now server (u.serverEndDate answers fields server)
        (now + 30 * 86400)

/-- The extension on re-enabling is decided on the end date known after the
first one: an end date sent with the PATCH is far enough ahead. -/
theorem extendsOnEnable_afterPatch_iff
    (hok : (u.afterPatch answers fields now server).ok = true) :
    u.ExtendsOnEnable now (u.afterPatch answers fields now server).cachedEndDate ↔
      u.ExtendsOnEnable now (u.knownEndDate answers fields server) := by
  have hend := u.endDate_sentPatch answers fields now server
  by_cases hpos : 0 < u.openEndedFallback fields.startDate u.cachedEndDate now
  · rw [if_pos hpos] at hend
    have hsent : (u.afterPatch answers fields now server).cachedEndDate =
        max now fields.startDate + 30 * 86400 := by
      rw [afterPatch, sendPatch] at hok ⊢
      split
      · next hempty => simp [RecurringRuleEditPatch.isEmpty, hend] at hempty
      · next hempty =>
          rw [if_neg hempty] at hok
          have hanswer : ((u.afterFirstDay answers fields server).server.answer answers u.ruleId
              (u.sentPatch answers fields now server)).outcome.isOk = true := hok
          simp only [hanswer, if_true, hend, Option.getD_some]
    have hknown : u.knownEndDate answers fields server ≤ 0 := by
      have hnone := (u.openEndedFallback_eq hpos).1
      have hext : ¬ u.ExtendsForFirstDay fields.startDate u.cachedEndDate := fun hext => by
        have := hext.2.1
        omega
      rw [knownEndDate, extendsForFirstDayWith]
      simpa [hext] using hnone
    constructor
    · intro h
      have := lt_of_tdiv_lt (by decide) h.2.2.2.2
      omega
    · intro h
      have := h.2.2.2.1
      omega
  · rw [if_neg hpos] at hend
    rw [(u.afterPatch_of_endDate_none answers fields now server hend).2]

/-- The PATCH respects the rule's dates unless it gives it an end date that
does not. -/
theorem keepsEndDate_sentPatch_iff {after : RecurringRule}
    (hstart : after.startDate = u.startDateAfter answers fields now server) :
    ((u.sentPatch answers fields now server).isEmpty = false →
        KeepsEndDate after ⟨u.ruleId, (u.afterFirstDay answers fields server).server.rules u.ruleId,
          u.sentPatch answers fields now server⟩) ↔
      (0 < u.openEndedFallback fields.startDate u.cachedEndDate now →
        u.Reaches answers fields now server (server.rules u.ruleId).endDate
          (max now fields.startDate + 30 * 86400)) := by
  have hend := u.endDate_sentPatch answers fields now server
  by_cases hpos : 0 < u.openEndedFallback fields.startDate u.cachedEndDate now
  · rw [if_pos hpos] at hend
    have hsent : (u.sentPatch answers fields now server).isEmpty = false := by
      simp [RecurringRuleEditPatch.isEmpty, hend]
    have hext : ¬ u.ExtendsForFirstDay fields.startDate u.cachedEndDate := fun hext => by
      have := (u.openEndedFallback_eq hpos).1
      have := hext.2.1
      omega
    rw [keepsEndDate_iff hend, hstart, afterFirstDay_of_not u answers fields server hext]
    simp only [hsent, hpos, true_implies, Reaches]
  · rw [if_neg hpos] at hend
    exact ⟨fun _ h => absurd h hpos, fun _ _ => keepsEndDate_of_none hend⟩

/-- The extension on re-enabling replaces the end date the server has after the
first one. -/
theorem keepsEndDate_onEnable_iff {after : RecurringRule}
    (hstart : after.startDate = u.startDateAfter answers fields now server) :
    ((u.afterPatch answers fields now server).ok = true ∧
          u.ExtendsOnEnable now (u.afterPatch answers fields now server).cachedEndDate →
        KeepsEndDate after ⟨u.ruleId, (u.afterPatch answers fields now server).server.rules u.ruleId,
          RuleServer.endDatePatch (now + 30 * 86400)⟩) ↔
      ((u.afterPatch answers fields now server).ok = true →
        u.ExtendsOnEnable now (u.knownEndDate answers fields server) →
          u.Reaches answers fields now server (u.serverEndDate answers fields server)
            (now + 30 * 86400)) := by
  rw [and_imp, keepsEndDate_iff rfl, hstart]
  refine imp_congr_right fun hok => ?_
  rw [extendsOnEnable_afterPatch_iff u answers fields now server hok]
  refine imp_congr_right fun hon => ?_
  have hend := u.endDate_sentPatch_of_knownEndDate_pos answers fields now server hon.2.2.2.1
  rw [(u.afterPatch_of_endDate_none answers fields now server hend).1]
  exact Iff.rfl

/-- **The end dates a save sends**, one condition for each of its requests. -/
theorem endDatesKept_iff_eachReaches (hlog : server.log = []) :
    (u.extendOnEnable answers now (u.afterPatch answers fields now server)).server.EndDatesKept ↔
      u.EachReaches answers fields now server := by
  generalize hfinal : (u.extendOnEnable answers now
    (u.afterPatch answers fields now server)).server = final
  have hstart : (final.rules u.ruleId).startDate = u.startDateAfter answers fields now server := by
    rw [← hfinal, ← startDate_afterPatch]
    by_cases h : (u.afterPatch answers fields now server).ok = true ∧
        u.ExtendsOnEnable now (u.afterPatch answers fields now server).cachedEndDate
    · rw [extendOnEnable_of u answers h.1 h.2]
      simp
    · rw [extendOnEnable_of_not u answers h]
  have hkept : final.EndDatesKept ↔
      (u.ExtendsForFirstDay fields.startDate u.cachedEndDate →
        KeepsEndDate (final.rules u.ruleId) ⟨u.ruleId, server.rules u.ruleId,
          RuleServer.endDatePatch (fields.startDate + 30 * 86400)⟩) ∧
      ((u.sentPatch answers fields now server).isEmpty = false →
        KeepsEndDate (final.rules u.ruleId) ⟨u.ruleId,
          (u.afterFirstDay answers fields server).server.rules u.ruleId,
          u.sentPatch answers fields now server⟩) ∧
      ((u.afterPatch answers fields now server).ok = true ∧
          u.ExtendsOnEnable now (u.afterPatch answers fields now server).cachedEndDate →
        KeepsEndDate (final.rules u.ruleId) ⟨u.ruleId,
          (u.afterPatch answers fields now server).server.rules u.ruleId,
          RuleServer.endDatePatch (now + 30 * 86400)⟩) := by
    have hmem (req : RuleRequest) : req ∈ (u.extendOnEnable answers now
        (u.afterPatch answers fields now server)).server.log ↔ _ :=
      u.mem_log_extendOnEnable answers now
    simp only [afterPatch, mem_log_sendPatch, afterFirstDay, mem_log_extendForFirstDay, hlog,
      List.not_mem_nil, false_or] at hmem
    rw [← hfinal]
    constructor
    · intro h
      exact ⟨fun hext => h _ ((hmem _).mpr (.inl (.inl ⟨hext, rfl⟩))),
        fun hsent => h _ ((hmem _).mpr (.inl (.inr ⟨hsent, rfl⟩))),
        fun hon => h _ ((hmem _).mpr (.inr ⟨hon, rfl⟩))⟩
    · intro h req hreq
      obtain (⟨hext, rfl⟩ | ⟨hsent, rfl⟩) | ⟨hon, rfl⟩ := (hmem req).mp hreq
      · exact h.1 hext
      · exact h.2.1 hsent
      · exact h.2.2 hon
  rw [hkept, keepsEndDate_iff rfl, hstart, keepsEndDate_sentPatch_iff u answers fields now server hstart,
    keepsEndDate_onEnable_iff u answers fields now server hstart]
  constructor
  · intro h
    exact ⟨h.1, h.2.1, h.2.2⟩
  · intro h
    exact ⟨h.firstDay, h.openEnded, h.enabled⟩

/-! ## a save that knows the end date -/

/-- The end date the save knows is the one the server has. -/
def KnowsEndDate : Prop :=
  ∀ rule, u.knownRule = some rule → rule.endDate = (server.rules u.ruleId).endDate

/-- What is left to ask of a save that knows the end date. -/
structure KnownReaches : Prop where
  /-- A rule without an end date is given one that reaches its first day, where
  that is not the new one. -/
  openEnded : 0 < u.openEndedFallback fields.startDate u.cachedEndDate now →
    u.startDateLands answers fields now server = false →
      day (server.rules u.ruleId).startDate ≤ day (max now fields.startDate) + 30
  /-- An extension that landed without an answer is not replaced by a shorter
  one. -/
  lostExtension : u.extendsForFirstDayWith answers fields server (· == .failedLanded) = true →
    (u.afterPatch answers fields now server).ok = true →
      u.ExtendsOnEnable now u.cachedEndDate → day fields.startDate ≤ day now

variable {u answers fields now server}

theorem cachedEndDate_eq (hknows : u.KnowsEndDate server) (hhave : u.haveRuleEndDate = true) :
    u.cachedEndDate = (server.rules u.ruleId).endDate := by
  rw [haveRuleEndDate, Option.isSome_iff_exists] at hhave
  obtain ⟨rule, hrule⟩ := hhave
  rw [cachedEndDate, hrule]
  exact hknows rule hrule

/-- The rule is one the server can hold throughout. -/
theorem validRule_afterPatch (hanswers : Validates answers)
    (hrules : ∀ id, ValidRule (server.rules id)) (id : Int) :
    ValidRule ((u.afterPatch answers fields now server).server.rules id) := by
  have hfirst : ∀ id, ValidRule ((u.afterFirstDay answers fields server).server.rules id) := by
    rw [afterFirstDay]
    by_cases h : u.ExtendsForFirstDay fields.startDate u.cachedEndDate
    · rw [extendForFirstDay_of u answers h]
      exact RuleServer.validRule_send hanswers hrules _ _
    · rw [extendForFirstDay_of_not u answers h]
      exact hrules
  rw [afterPatch, sendPatch]
  split
  · exact hfirst id
  · exact RuleServer.validRule_send hanswers hfirst _ _ id

theorem reaches_firstDay (hknows : u.KnowsEndDate server)
    (hvalid : ValidRule (server.rules u.ruleId))
    (hext : u.ExtendsForFirstDay fields.startDate u.cachedEndDate) :
    u.Reaches answers fields now server (server.rules u.ruleId).endDate
      (fields.startDate + 30 * 86400) := by
  obtain ⟨hhave, hpos, hle⟩ := hext
  rw [cachedEndDate_eq hknows hhave] at hpos hle
  have hstart := hvalid hpos
  have hday := day_mono hle
  rw [Reaches, startDateAfter, day_add]
  refine ⟨?_, fun _ => by omega⟩
  split <;> omega

theorem reaches_openEnded (hknows : u.KnowsEndDate server)
    (hpos : 0 < u.openEndedFallback fields.startDate u.cachedEndDate now)
    (h : u.startDateLands answers fields now server = false →
      day (server.rules u.ruleId).startDate ≤ day (max now fields.startDate) + 30) :
    u.Reaches answers fields now server (server.rules u.ruleId).endDate
      (max now fields.startDate + 30 * 86400) := by
  have hnone := (u.openEndedFallback_eq hpos).1
  rw [cachedEndDate_eq hknows (u.openEndedFallback_pos_iff.mp hpos).1] at hnone
  have hday := day_mono (Int.le_max_right now fields.startDate)
  rw [Reaches, startDateAfter, day_add]
  refine ⟨?_, fun hset => by omega⟩
  split
  · omega
  · next hlands => exact h (by simpa using hlands)

/-- An extension that landed and is not known to is one whose answer was
lost. -/
theorem extendsForFirstDayWith_failedLanded
    (hlands : u.extendsForFirstDayWith answers fields server RequestOutcome.landed = true)
    (hok : ¬ u.extendsForFirstDayWith answers fields server RequestOutcome.isOk = true) :
    u.extendsForFirstDayWith answers fields server (· == .failedLanded) = true := by
  rw [extendsForFirstDayWith, Bool.and_eq_true] at hlands hok ⊢
  refine ⟨hlands.1, ?_⟩
  cases houtcome : (server.answer answers u.ruleId
      (RuleServer.endDatePatch (fields.startDate + 30 * 86400))).outcome with
  | ok => exact absurd ⟨hlands.1, by rw [houtcome]; rfl⟩ hok
  | failedLanded => rfl
  | failedNotLanded =>
      rw [houtcome] at hlands
      exact absurd hlands.2 (by decide)

theorem reaches_onEnable (hknows : u.KnowsEndDate server) (hanswers : Validates answers)
    (hrules : ∀ id, ValidRule (server.rules id))
    (hon : u.ExtendsOnEnable now (u.knownEndDate answers fields server))
    (hlost : u.extendsForFirstDayWith answers fields server (· == .failedLanded) = true →
      u.ExtendsOnEnable now u.cachedEndDate → day fields.startDate ≤ day now) :
    u.Reaches answers fields now server (u.serverEndDate answers fields server)
      (now + 30 * 86400) := by
  have hE := cachedEndDate_eq hknows hon.1
  have hknown := hon.2.2.2.1
  have hnear := lt_of_tdiv_lt (by decide) hon.2.2.2.2
  -- the server's end date is within the window
  have hend : 0 < u.serverEndDate answers fields server ∧
      day (u.serverEndDate answers fields server) ≤ day (now + 30 * 86400) := by
    rw [serverEndDate]
    rw [knownEndDate] at hknown hnear hon
    split
    · next hlands =>
        have hext := hlands
        rw [extendsForFirstDayWith, Bool.and_eq_true, decide_eq_true_iff] at hext
        have hpos := hext.1.2
        refine ⟨by omega, ?_⟩
        by_cases hok : u.extendsForFirstDayWith answers fields server RequestOutcome.isOk = true
        · rw [if_pos hok] at hnear
          exact day_mono (by omega)
        · rw [if_neg hok] at hon
          have := hlost (extendsForFirstDayWith_failedLanded hlands hok) hon
          rw [day_add, day_add]
          omega
    · next hlands =>
        have hok : ¬ u.extendsForFirstDayWith answers fields server RequestOutcome.isOk = true := by
          rw [extendsForFirstDayWith, Bool.and_eq_true] at hlands ⊢
          exact fun hok => hlands ⟨hok.1, RequestOutcome.landed_of_isOk hok.2⟩
        rw [if_neg hok] at hnear hknown
        exact ⟨by omega, day_mono (by omega)⟩
  refine ⟨?_, fun _ => hend.2⟩
  -- and the first day is not after it, on a rule the server holds
  have hnone : (u.sentPatch answers fields now server).endDate = none :=
    endDate_sentPatch_of_knownEndDate_pos u answers fields now server hknown
  have hafter : ValidRule ((u.afterPatch answers fields now server).server.rules u.ruleId) :=
    validRule_afterPatch hanswers hrules _
  rw [ValidRule, startDate_afterPatch, (u.afterPatch_of_endDate_none answers fields now server
    hnone).1] at hafter
  have := hafter hend.1
  omega

/-- **With the end date known**, two of the requests can go wrong: the end date
of a rule that had none, and the extension after one that was lost. -/
theorem eachReaches_iff_knownReaches (hknows : u.KnowsEndDate server)
    (hanswers : Validates answers) (hrules : ∀ id, ValidRule (server.rules id)) :
    u.EachReaches answers fields now server ↔ u.KnownReaches answers fields now server := by
  have hvalid := hrules u.ruleId
  constructor
  · intro h
    refine ⟨fun hpos hstart => ?_, fun hlost hok hon => ?_⟩
    · have hreach := (h.openEnded hpos).1
      rw [startDateAfter, hstart, day_add] at hreach
      exact hreach
    · have hext : u.ExtendsForFirstDay fields.startDate u.cachedEndDate := by
        rw [extendsForFirstDayWith, Bool.and_eq_true, decide_eq_true_iff] at hlost
        exact hlost.1
      have houtcome := hlost
      rw [extendsForFirstDayWith, decide_eq_true hext, Bool.true_and, beq_iff_eq] at houtcome
      have hknown : u.knownEndDate answers fields server = u.cachedEndDate := by
        rw [knownEndDate, extendsForFirstDayWith, houtcome]
        simp [RequestOutcome.isOk]
      have hserver : u.serverEndDate answers fields server = fields.startDate + 30 * 86400 := by
        rw [serverEndDate, extendsForFirstDayWith, houtcome]
        simp [RequestOutcome.landed, hext]
      have hreach := (h.enabled hok (hknown.symm ▸ hon)).2
      rw [hserver, day_add, day_add] at hreach
      have hpos : 0 < fields.startDate + 30 * 86400 := by
        have := hext.2
        omega
      have := hreach hpos
      omega
  · intro h
    exact ⟨reaches_firstDay hknows hvalid, fun hpos => reaches_openEnded hknows hpos (h.openEnded hpos),
      fun hok hon => reaches_onEnable hknows hanswers hrules hon (h.lostExtension · hok)⟩

/-! ## the save as a whole -/

/-- When every end date a save sends is kept: what is left to ask where it knows
the end date, and for one that works from an end date the server no longer has,
each request on its own. -/
structure EndDatesReach (u : RecurringUpdate) (answers : RuleAnswers)
    (fields : ComputedRecurringRuleFields) (now : Int) (server : RuleServer) : Prop where
  known : u.KnowsEndDate server → u.KnownReaches answers fields now server
  stale : ¬ u.KnowsEndDate server → u.EachReaches answers fields now server

theorem endDatesKept_updateTimer_iff {D K : Int → Int} (hlog : server.log = [])
    (hanswers : Validates answers) (hrules : ∀ id, ValidRule (server.rules id)) :
    (u.updateTimer answers D K now server).server.EndDatesKept ↔
      (u.fresh ≠ .gone → (u.computedFields D K now).ok = true →
        u.EndDatesReach answers (u.computedFields D K now) now server) := by
  by_cases hreached : u.fresh ≠ .gone ∧ (u.computedFields D K now).ok = true
  case neg =>
    have hfails : u.fresh = .gone ∨ (u.computedFields D K now).ok = false := by
      by_cases hfound : u.fresh = .gone
      · exact .inl hfound
      · exact .inr (by simpa [hfound] using hreached)
    rw [(updateTimer_of_not_reached u answers D K now server hfails).2]
    constructor
    · intro _ hfound hok
      exact absurd ⟨hfound, hok⟩ hreached
    · intro _ req hreq
      rw [hlog] at hreq
      exact absurd hreq List.not_mem_nil
  rw [updateTimer_eq u answers D K now server hreached.1 hreached.2]
  simp only [hreached.1, hreached.2, true_implies, ne_eq, not_false_eq_true]
  have hiff := endDatesKept_iff_eachReaches u answers (u.computedFields D K now) now server hlog
  refine hiff.trans ?_
  by_cases hknows : u.KnowsEndDate server
  · rw [eachReaches_iff_knownReaches hknows hanswers hrules]
    exact ⟨fun h => ⟨fun _ => h, fun hstale => absurd hknows hstale⟩, fun h => h.known hknows⟩
  · exact ⟨fun h => ⟨fun h' => absurd h' hknows, fun _ => h⟩, fun h => h.stale hknows⟩

end Save

end RecurringUpdate

end DispatcharrPvr
