import DispatcharrPvr.UpdateTimer

/-!
# UpdateTimer.Stages

What each of the three stages of a save sends, and when: `ExtendsForFirstDay`
and `ExtendsOnEnable` name the two conditions, and one lemma each says what the
stage is with and without its condition.
-/

namespace DispatcharrPvr

namespace RecurringUpdate

section Stages

variable (u : RecurringUpdate) (answers : RuleAnswers)

/-- The first stage sends when the rule's end date is known, set, and not after
the first day. -/
def ExtendsForFirstDay (startDate cachedEndDate : Int) : Prop :=
  u.haveRuleEndDate = true ∧ 0 < cachedEndDate ∧ cachedEndDate ≤ startDate

/-- The third stage sends when the rule is enabled from disabled with an end
date less than half a window away. -/
def ExtendsOnEnable (now cachedEndDate : Int) : Prop :=
  u.haveRuleEndDate = true ∧ u.cachedWasEnabled = false ∧ u.enabled = true ∧ 0 < cachedEndDate ∧
    (cachedEndDate - now).tdiv 86400 < 15

instance (startDate cachedEndDate : Int) :
    Decidable (u.ExtendsForFirstDay startDate cachedEndDate) :=
  inferInstanceAs (Decidable (_ ∧ _))

instance (now cachedEndDate : Int) : Decidable (u.ExtendsOnEnable now cachedEndDate) :=
  inferInstanceAs (Decidable (_ ∧ _))

theorem extendForFirstDay_of_not {startDate : Int} {st : UpdateState}
    (h : ¬ u.ExtendsForFirstDay startDate st.cachedEndDate) :
    u.extendForFirstDay answers startDate st = st := by
  have hreq : ¬ 0 < (if u.haveRuleEndDate = true then
      computeRecurringRuleEndDateForStartDateChange startDate st.cachedEndDate
        recurringRuleWindowDays else 0) := by
    split
    · next hhave =>
        rw [endDateForStartDateChange_pos_iff]
        exact fun hpos => h ⟨hhave, hpos⟩
    · omega
  rw [extendForFirstDay, if_neg hreq]

theorem extendForFirstDay_of {startDate : Int} {st : UpdateState}
    (h : u.ExtendsForFirstDay startDate st.cachedEndDate) :
    u.extendForFirstDay answers startDate st =
      let patch := RuleServer.endDatePatch (startDate + 30 * 86400)
      { st with
        server := st.server.send answers u.ruleId patch
        cachedEndDate :=
          if (st.server.answer answers u.ruleId patch).outcome.isOk then startDate + 30 * 86400
          else st.cachedEndDate } := by
  have hpos := endDateForStartDateChange_pos_iff.mpr h.2
  have heq := endDateForStartDateChange_eq h.2
  rw [heq] at hpos
  simp only [extendForFirstDay, h.1, if_true, heq, hpos]

theorem extendOnEnable_of_not {now : Int} {st : UpdateState}
    (h : ¬ (st.ok = true ∧ u.ExtendsOnEnable now st.cachedEndDate)) :
    u.extendOnEnable answers now st = st := by
  rw [extendOnEnable, if_neg]
  rw [Bool.and_eq_true, Bool.and_eq_true, shouldExtendOnUpdate_iff]
  rintro ⟨⟨hok, hhave⟩, hext⟩
  exact h ⟨hok, hhave, hext⟩

theorem extendOnEnable_of {now : Int} {st : UpdateState} (hok : st.ok = true)
    (h : u.ExtendsOnEnable now st.cachedEndDate) :
    u.extendOnEnable answers now st =
      { st with
        server := st.server.send answers u.ruleId (RuleServer.endDatePatch (now + 30 * 86400)) } := by
  rw [extendOnEnable, if_pos]
  · rfl
  · rw [Bool.and_eq_true, Bool.and_eq_true, shouldExtendOnUpdate_iff]
    exact ⟨⟨hok, h.1⟩, h.2⟩

theorem sendPatch_of_isEmpty {patch : RecurringRuleEditPatch} {st : UpdateState}
    (h : patch.isEmpty = true) : u.sendPatch answers patch st = { st with ok := true } := by
  rw [sendPatch, if_pos h]

/-! ### every stage adds at most one request to the log -/

theorem length_log_extendForFirstDay (startDate : Int) (st : UpdateState) :
    (u.extendForFirstDay answers startDate st).server.log.length =
      st.server.log.length + if u.ExtendsForFirstDay startDate st.cachedEndDate then 1 else 0 := by
  split
  · next h => rw [extendForFirstDay_of u answers h]; simp
  · next h => rw [extendForFirstDay_of_not u answers h]; rfl

theorem length_log_sendPatch (patch : RecurringRuleEditPatch) (st : UpdateState) :
    (u.sendPatch answers patch st).server.log.length =
      st.server.log.length + if patch.isEmpty then 0 else 1 := by
  simp only [sendPatch]
  split <;> simp

theorem length_log_extendOnEnable (now : Int) (st : UpdateState) :
    (u.extendOnEnable answers now st).server.log.length =
      st.server.log.length +
        if st.ok = true ∧ u.ExtendsOnEnable now st.cachedEndDate then 1 else 0 := by
  split
  · next h => rw [extendOnEnable_of u answers h.1 h.2]; simp
  · next h => rw [extendOnEnable_of_not u answers h]; rfl

/-- The three stages send nothing and succeed when none of them has anything
to send. -/
theorem stages_quiet_iff {fields : ComputedRecurringRuleFields} {now : Int} {st : UpdateState}
    (hst : st.ok = true) :
    (let st₁ := u.extendForFirstDay answers fields.startDate st
      let st₂ := u.sendPatch answers (u.patch fields st₁.cachedEndDate now) st₁
      let st₃ := u.extendOnEnable answers now st₂
      st₃.server.log = st.server.log ∧ st₃.ok = true) ↔
      ¬ u.ExtendsForFirstDay fields.startDate st.cachedEndDate ∧
        (u.patch fields st.cachedEndDate now).isEmpty = true ∧
          ¬ u.ExtendsOnEnable now st.cachedEndDate := by
  by_cases h₁ : u.ExtendsForFirstDay fields.startDate st.cachedEndDate
  · refine ⟨fun h => ?_, fun h => absurd h₁ h.1⟩
    have hlen := congrArg List.length h.1
    rw [length_log_extendOnEnable, length_log_sendPatch, length_log_extendForFirstDay,
      if_pos h₁] at hlen
    omega
  rw [extendForFirstDay_of_not u answers h₁]
  by_cases h₂ : (u.patch fields st.cachedEndDate now).isEmpty = true
  case neg =>
    refine ⟨fun h => ?_, fun h => absurd h.2.1 h₂⟩
    have hlen := congrArg List.length h.1
    rw [length_log_extendOnEnable, length_log_sendPatch, if_neg h₂] at hlen
    omega
  have hsame : ({ st with ok := true } : UpdateState) = st := by rw [← hst]
  simp only [sendPatch_of_isEmpty u answers h₂, hsame]
  by_cases h₃ : u.ExtendsOnEnable now st.cachedEndDate
  · refine ⟨fun h => ?_, fun h => absurd h₃ h.2.2⟩
    have hlen := congrArg List.length h.1
    rw [length_log_extendOnEnable, if_pos ⟨hst, h₃⟩] at hlen
    omega
  · rw [extendOnEnable_of_not u answers fun h => h₃ h.2]
    exact ⟨fun _ => ⟨h₁, h₂, h₃⟩, fun _ => ⟨rfl, hst⟩⟩

/-- The end date given to an open-ended rule makes the patch non-empty. -/
theorem isEmpty_patch_iff {fields : ComputedRecurringRuleFields} {cachedEndDate now : Int} :
    (u.patch fields cachedEndDate now).isEmpty = true ↔
      (u.editPatch fields).isEmpty = true ∧
        ¬ 0 < u.openEndedFallback fields.startDate cachedEndDate now := by
  simp only [patch]
  split
  · next hpos => simp [RecurringRuleEditPatch.isEmpty, hpos]
  · next hneg => simp [hneg]

theorem openEndedFallback_pos_iff {startDate cachedEndDate now : Int} :
    0 < u.openEndedFallback startDate cachedEndDate now ↔
      u.haveRuleEndDate = true ∧ cachedEndDate ≤ 0 ∧ 0 < max now startDate + 30 * 86400 := by
  simp only [openEndedFallback, computeEndDateForOpenEndedRuleEdit, recurringRuleWindowDays]
  cases u.haveRuleEndDate
  · simp
  · simp only [if_true, true_and]
    split <;> omega

/-! ### the whole save -/

variable (D K : Int → Int) (now : Int) (server : RuleServer)

/-- A save that reaches its three stages. -/
theorem updateTimer_eq (hfound : u.fresh ≠ .gone)
    (hok : (u.computedFields D K now).ok = true) :
    u.updateTimer answers D K now server =
      let fields := u.computedFields D K now
      let st₁ := u.extendForFirstDay answers fields.startDate
        { server, cachedEndDate := u.cachedEndDate, ok := true }
      let st₂ := u.sendPatch answers (u.patch fields st₁.cachedEndDate now) st₁
      let st₃ := u.extendOnEnable answers now st₂
      { ok := st₃.ok, error := none, server := st₃.server } := by
  have hnot : ¬ (!(u.computedFields D K now).ok) = true := by simp [hok]
  rw [updateTimer, if_neg hfound, if_neg hnot]

/-- A save that does not reach them fails and sends nothing. -/
theorem updateTimer_of_not_reached
    (h : u.fresh = .gone ∨ (u.computedFields D K now).ok = false) :
    (u.updateTimer answers D K now server).ok = false ∧
      (u.updateTimer answers D K now server).server = server := by
  rw [updateTimer]
  split
  · exact ⟨rfl, rfl⟩
  · next hfound =>
      have hfields := h.resolve_left hfound
      rw [if_pos (by rw [hfields]; rfl)]
      exact ⟨rfl, rfl⟩

end Stages

end RecurringUpdate

end DispatcharrPvr
