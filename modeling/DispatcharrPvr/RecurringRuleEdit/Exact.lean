import DispatcharrPvr.RecurringRuleEdit

/-!
# RecurringRuleEdit.Exact

A save sends exactly what the user changed (`save_sends_what_changed`).

Two halves meet here.  The history half: the report a dialog was opened on is
still what its token finds, as long as fewer than eight other reports of the
rule have been recorded since (`find_records`).  The difference half: against
that report a field is sent exactly when the saved value differs in the sense
that matters on the wire (`computeRecurringRuleEditPatch_exact`), so applying
the patch leaves every other field to whoever wrote it last.
-/

namespace DispatcharrPvr

open Containers TruncDiv

/-! ## the report the dialog was opened on -/

namespace ReportedRecurringRuleHistory

/-- The reports of one rule in a sequence of recorded reports. -/
def reportsOf (ruleId : Int) (reports : List (Int → Option ReportedRecurringRule)) :
    List ReportedRecurringRule :=
  reports.filterMap fun report => report ruleId

/-- While every report has the rule, its entries are touched one by one. -/
theorem record_foldl {m : ReportedRecurringRuleHistory} {ruleId : Int} {entries : List ReportEntry}
    {reports : List (Int → Option ReportedRecurringRule)} (hm : m ruleId = some entries)
    (hall : ∀ report ∈ reports, (report ruleId).isSome) :
    (reports.foldl record m) ruleId =
      some (touches maxReportsPerRule ReportEntry.token entries
        ((reportsOf ruleId reports).map reportEntry)) := by
  induction reports generalizing m entries with
  | nil => exact hm
  | cons report reports ih =>
      obtain ⟨rule, hrule⟩ := Option.isSome_iff_exists.mp (hall report (List.mem_cons_self ..))
      have hrecord : record m report ruleId =
          some (touch maxReportsPerRule ReportEntry.token entries (reportEntry rule)) := by
        simp [record, hrule, hm]
      have hrest := ih hrecord fun r hr => hall r (List.mem_cons_of_mem _ hr)
      rw [List.foldl_cons, hrest]
      simp [reportsOf, hrule, touches]

/-- Different tokens come from different reports. -/
theorem card_tokens_le (r : ReportedRecurringRule) (reports : List ReportedRecurringRule) :
    (((reports.map reportEntry).map ReportEntry.token).toFinset.erase
        (reportEntry r).token).card ≤ (reports.toFinset.erase r).card := by
  have hsub : ((reports.map reportEntry).map ReportEntry.token).toFinset.erase
      (reportEntry r).token ⊆
        (reports.toFinset.erase r).image fun r => (reportEntry r).token := by
    intro t ht
    obtain ⟨hne, hmem⟩ := Finset.mem_erase.mp ht
    simp only [List.mem_toFinset, List.mem_map] at hmem
    obtain ⟨e, ⟨r', hr', rfl⟩, rfl⟩ := hmem
    refine Finset.mem_image.mpr ⟨r', Finset.mem_erase.mpr ⟨fun h => hne (by rw [h]), ?_⟩, rfl⟩
    exact List.mem_toFinset.mpr hr'
  exact (Finset.card_le_card hsub).trans Finset.card_image_le

/-- **The history finds the dialog's own report**: after the report `opened`
is recorded, its token finds it as long as fewer than eight other reports of
the rule follow. -/
theorem find_records {m : ReportedRecurringRuleHistory} {ruleId : Int}
    {shown : Int → Option ReportedRecurringRule} {opened : ReportedRecurringRule}
    {later : List (Int → Option ReportedRecurringRule)} (hshown : shown ruleId = some opened)
    (hall : ∀ report ∈ later, (report ruleId).isSome)
    (hfew : ((reportsOf ruleId later).toFinset.erase opened).card < maxReportsPerRule)
    (htokens : ∀ r ∈ reportsOf ruleId later, computeReportedRecurringRuleToken r =
      computeReportedRecurringRuleToken opened → r = opened) :
    (later.foldl record (m.record shown)).find ruleId (computeReportedRecurringRuleToken opened) =
      some opened := by
  have hopened : m.record shown ruleId =
      some (touch maxReportsPerRule ReportEntry.token ((m ruleId).getD []) (reportEntry opened)) := by
    simp [record, hshown]
  have hself : ∀ e ∈ (reportsOf ruleId later).map reportEntry,
      e.token = (reportEntry opened).token → e = reportEntry opened := by
    intro e he htoken
    obtain ⟨r, hr, rfl⟩ := List.mem_map.mp he
    rw [htokens r hr htoken]
  have hfind : (touches maxReportsPerRule ReportEntry.token ((m ruleId).getD [])
      (reportEntry opened :: (reportsOf ruleId later).map reportEntry)).find?
        (fun e => e.token = computeReportedRecurringRuleToken opened) = some (reportEntry opened) :=
    find?_touches _ hself (Nat.lt_of_le_of_lt (card_tokens_le opened _) hfew)
  have hentries : later.foldl record (m.record shown) ruleId =
      some (touches maxReportsPerRule ReportEntry.token ((m ruleId).getD [])
        (reportEntry opened :: (reportsOf ruleId later).map reportEntry)) :=
    record_foldl hopened hall
  simp only [find, hentries, hfind]
  rfl

end ReportedRecurringRuleHistory

/-! ## what is sent against it -/

/-- A field is sent, with `value`, exactly when it is not `same` as before. -/
def Sends {α : Type} (sent : Option α) (value : α) (same : Prop) : Prop :=
  (same → sent = none) ∧ (¬ same → sent = some value)

theorem sends_ite {α : Type} {value : α} {same : Prop} [Decidable same] :
    Sends (if ¬ same then some value else none) value same :=
  ⟨fun h => if_neg (not_not_intro h), fun h => if_pos h⟩

/-- A field that is sent takes the user's value, any other keeps its own. -/
theorem Sends.getD {α : Type} {sent : Option α} {value : α} {same : Prop}
    (h : Sends sent value same) (current : α) :
    (same → sent.getD current = current) ∧ (¬ same → sent.getD current = value) :=
  ⟨fun hs => by rw [h.1 hs]; rfl, fun hs => by rw [h.2 hs]; rfl⟩

/-- What a patch carries when it carries exactly what differs: weekdays as
sets, times of day modulo a day, everything else by value, never an end date. -/
structure ExactPatch (patch : RecurringRuleEditPatch) (edited opened : RecurringRuleFields) :
    Prop where
  channelId : Sends patch.channelId edited.channelId (edited.channelId = opened.channelId)
  name : Sends patch.name edited.name (edited.name = opened.name)
  daysOfWeek : Sends patch.daysOfWeek edited.daysOfWeek
    (∀ d, d ∈ edited.daysOfWeek ↔ d ∈ opened.daysOfWeek)
  startTime : Sends patch.startTimeOfDaySeconds edited.startTimeOfDaySeconds
    (edited.startTimeOfDaySeconds % 86400 = opened.startTimeOfDaySeconds % 86400)
  endTime : Sends patch.endTimeOfDaySeconds edited.endTimeOfDaySeconds
    (edited.endTimeOfDaySeconds % 86400 = opened.endTimeOfDaySeconds % 86400)
  startDate : Sends patch.startDate edited.startDate (edited.startDate = opened.startDate)
  enabled : Sends patch.enabled edited.enabled (edited.enabled = opened.enabled)
  endDate : patch.endDate = none

theorem sameTimeOfDay_iff (a b : Int) : sameTimeOfDay a b = true ↔ a % 86400 = b % 86400 := by
  rw [sameTimeOfDay, beq_iff_eq, floorMod_eq_emod (by decide), floorMod_eq_emod (by decide)]

/-- UTC midnights are the same calendar day only when they are equal. -/
theorem sameCalendarDay_iff {a b : Int} (ha : a % 86400 = 0) (hb : b % 86400 = 0) :
    sameCalendarDay a b = true ↔ a = b := by
  have hda : a.tdiv 86400 = a / 86400 := Int.tdiv_eq_ediv_of_dvd (Int.dvd_of_emod_eq_zero ha)
  have hdb : b.tdiv 86400 = b / 86400 := Int.tdiv_eq_ediv_of_dvd (Int.dvd_of_emod_eq_zero hb)
  rw [sameCalendarDay, beq_iff_eq, hda, hdb]
  omega

theorem computeRecurringRuleEditPatch_exact {edited opened : RecurringRuleFields}
    (hedited : edited.startDate % 86400 = 0) (hopened : opened.startDate % 86400 = 0) :
    ExactPatch (computeRecurringRuleEditPatch (some opened) edited) edited opened where
  channelId := sends_ite
  name := sends_ite
  daysOfWeek := by
    rw [← sortUnique_eq_iff]
    exact sends_ite
  startTime := by
    rw [← sameTimeOfDay_iff]
    simp only [computeRecurringRuleEditPatch, Bool.not_eq_true', ← Bool.not_eq_true]
    exact sends_ite
  endTime := by
    rw [← sameTimeOfDay_iff]
    simp only [computeRecurringRuleEditPatch, Bool.not_eq_true', ← Bool.not_eq_true]
    exact sends_ite
  startDate := by
    rw [← sameCalendarDay_iff hedited hopened]
    simp only [computeRecurringRuleEditPatch, Bool.not_eq_true', ← Bool.not_eq_true]
    exact sends_ite
  enabled := sends_ite
  endDate := rfl

/-- The rule after the patch: the user's value where they changed it, the
server's own everywhere else. -/
structure MergesEdit (after before : RecurringRule) (edited opened : RecurringRuleFields) :
    Prop where
  channelId : (edited.channelId = opened.channelId → after.channelId = before.channelId) ∧
    (edited.channelId ≠ opened.channelId → after.channelId = edited.channelId)
  name : (edited.name = opened.name → after.name = before.name) ∧
    (edited.name ≠ opened.name → after.name = edited.name)
  daysOfWeek : ((∀ d, d ∈ edited.daysOfWeek ↔ d ∈ opened.daysOfWeek) →
      after.daysOfWeek = before.daysOfWeek) ∧
    ((¬ ∀ d, d ∈ edited.daysOfWeek ↔ d ∈ opened.daysOfWeek) →
      after.daysOfWeek = edited.daysOfWeek)
  startTime : (edited.startTimeOfDaySeconds % 86400 = opened.startTimeOfDaySeconds % 86400 →
      after.startTimeOfDaySeconds = before.startTimeOfDaySeconds) ∧
    (edited.startTimeOfDaySeconds % 86400 ≠ opened.startTimeOfDaySeconds % 86400 →
      after.startTimeOfDaySeconds = edited.startTimeOfDaySeconds)
  endTime : (edited.endTimeOfDaySeconds % 86400 = opened.endTimeOfDaySeconds % 86400 →
      after.endTimeOfDaySeconds = before.endTimeOfDaySeconds) ∧
    (edited.endTimeOfDaySeconds % 86400 ≠ opened.endTimeOfDaySeconds % 86400 →
      after.endTimeOfDaySeconds = edited.endTimeOfDaySeconds)
  startDate : (edited.startDate = opened.startDate → after.startDate = before.startDate) ∧
    (edited.startDate ≠ opened.startDate → after.startDate = edited.startDate)
  enabled : (edited.enabled = opened.enabled → after.enabled = before.enabled) ∧
    (edited.enabled ≠ opened.enabled → after.enabled = edited.enabled)
  endDate : after.endDate = before.endDate

theorem ExactPatch.merges {patch : RecurringRuleEditPatch} {edited opened : RecurringRuleFields}
    (h : ExactPatch patch edited opened) (server : RecurringRule) :
    MergesEdit (patch.apply server) server edited opened where
  channelId := h.channelId.getD _
  name := h.name.getD _
  daysOfWeek := h.daysOfWeek.getD _
  startTime := h.startTime.getD _
  endTime := h.endTime.getD _
  startDate := h.startDate.getD _
  enabled := h.enabled.getD _
  endDate := by
    show patch.endDate.getD server.endDate = server.endDate
    rw [h.endDate]
    rfl

/-- **A save sends exactly what the user changed**, against the report the
dialog was opened on, whatever was reported since and whatever the server holds
by now. -/
theorem save_sends_what_changed {m : ReportedRecurringRuleHistory} {ruleId : Int}
    {shown : Int → Option ReportedRecurringRule} {opened : ReportedRecurringRule}
    {later : List (Int → Option ReportedRecurringRule)} {edited : RecurringRuleFields}
    (hshown : shown ruleId = some opened) (hall : ∀ report ∈ later, (report ruleId).isSome)
    (hfew : ((ReportedRecurringRuleHistory.reportsOf ruleId later).toFinset.erase opened).card <
      maxReportsPerRule)
    (htokens : ∀ r ∈ ReportedRecurringRuleHistory.reportsOf ruleId later,
      computeReportedRecurringRuleToken r = computeReportedRecurringRuleToken opened → r = opened)
    (hedited : edited.startDate % 86400 = 0) (hopened : opened.fields.startDate % 86400 = 0) :
    let history := later.foldl ReportedRecurringRuleHistory.record (m.record shown)
    let found := history.find ruleId (computeReportedRecurringRuleToken opened)
    let patch := computeRecurringRuleEditPatch (found.map (·.fields)) edited
    ExactPatch patch edited opened.fields ∧
      ∀ server : RecurringRule, MergesEdit (patch.apply server) server edited opened.fields := by
  intro history found patch
  have hfound : found = some opened :=
    ReportedRecurringRuleHistory.find_records hshown hall hfew htokens
  have hexact : ExactPatch patch edited opened.fields := by
    have hpatch : patch = computeRecurringRuleEditPatch (some opened.fields) edited := by
      show computeRecurringRuleEditPatch (found.map (·.fields)) edited = _
      rw [hfound]
      rfl
    rw [hpatch]
    exact computeRecurringRuleEditPatch_exact hedited hopened
  exact ⟨hexact, hexact.merges⟩

/-- The dialog is opened on a rule of channel 4; before the save that disables
it another client moves it to channel 9 and the move is reported.  The save
disables the rule and leaves it on channel 9. -/
theorem save_sends_what_changed_toggle :
    let fields : RecurringRuleFields :=
      { channelId := 4, name := ascii "News", daysOfWeek := [0, 2], startTimeOfDaySeconds := 72000,
        endTimeOfDaySeconds := 75600, startDate := 1728000000 }
    let opened : ReportedRecurringRule := ⟨fields, 1728072000, 1728075600⟩
    let moved : ReportedRecurringRule :=
      ⟨{ fields with channelId := 9 }, 1728072000, 1728075600⟩
    let history : ReportedRecurringRuleHistory :=
      [fun _ => some moved].foldl ReportedRecurringRuleHistory.record
        (ReportedRecurringRuleHistory.record (fun _ => none) fun _ => some opened)
    let patch := computeRecurringRuleEditPatch
      ((history.find 7 (computeReportedRecurringRuleToken opened)).map (·.fields))
      { fields with enabled := false }
    let server : RecurringRule := { id := 7, channelId := 9, enabled := true }
    (patch.apply server).channelId = 9 ∧ (patch.apply server).enabled = false := by
  intro fields opened moved history patch server
  have h := @save_sends_what_changed (fun _ => none) 7 (fun _ => some opened) opened
    [fun _ => some moved] { fields with enabled := false } rfl (by decide) (by decide)
    (by decide +kernel) (by decide) (by decide)
  exact ⟨(h.2 server).channelId.1 rfl, (h.2 server).enabled.2 (by decide)⟩

end DispatcharrPvr
