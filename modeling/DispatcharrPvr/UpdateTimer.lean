import DispatcharrPvr.RecurringRuleEdit
import DispatcharrPvr.RecurringRuleRenewal
import DispatcharrPvr.RecurringRuleUtil
import DispatcharrPvr.RuleServer

/-!
# UpdateTimer

The recurring branch of `PVRDispatcharr::UpdateTimer`, and the part of
`GetTimers` that reports a recurring rule to Kodi.

A save can write in three places, and each is a definition of its own here: an
extension of the end date before a first day that is moved past it
(`extendForFirstDay`), the PATCH of what changed (`sendPatch`), and an extension
after a rule is enabled again (`extendOnEnable`).  They share the end date the
save works from, which the first two update.

`D` and `K` give Dispatcharr's and Kodi's offset in minutes at an instant; one
instant `now` stands for the calls of `time(nullptr)` of one save.
-/

namespace DispatcharrPvr

/-- The `PVR_TIMER_STATE`s a recurring rule is reported with. -/
inductive TimerState
  | scheduled
  | disabled
  | error
deriving DecidableEq, Repr

/-- The fields of `kodi::addon::PVRTimer` that `GetTimers` fills and
`UpdateTimer` reads for a recurring rule. -/
structure KodiTimer where
  clientChannelUid : Int
  title : ByteString
  startTime : Int
  endTime : Int
  firstDay : Int
  weekdays : BitVec 32
  state : TimerState
  seriesLink : ByteString
deriving DecidableEq, Repr

/-- `PVR_CHANNEL_INVALID_UID`. -/
def pvrChannelInvalidUid : Int := -1

/-- The title of a rule that has no name. -/
def recurringRulePlaceholder (ruleId : Int) : ByteString :=
  ascii "Recurring recording " ++ toByteString ruleId

/-! ## GetTimers -/

/-- What `GetTimers` keeps of a rule it reports. -/
def reportOf (D K : Int → Int) (rule : RecurringRule) : ReportedRecurringRule :=
  let shown := computeRecurringRuleDisplayTimes rule.startDate rule.startTimeOfDaySeconds
    rule.endTimeOfDaySeconds D K
  ⟨editableFieldsOf rule, shown.startTime, shown.endTime⟩

/-- The timer `GetTimers` reports for a rule. -/
def reportedTimer (D K : Int → Int) (now : Int) (rule : RecurringRule) : KodiTimer :=
  let shown := computeRecurringRuleDisplayTimes rule.startDate rule.startTimeOfDaySeconds
    rule.endTimeOfDaySeconds D K
  let ruleDisplayName := stripManagedRuleMarker rule.name
  { clientChannelUid := if 0 < rule.channelId then rule.channelId else pvrChannelInvalidUid
    title := if ruleDisplayName.isEmpty then recurringRulePlaceholder rule.id else ruleDisplayName
    startTime := shown.startTime
    endTime := shown.endTime
    firstDay := shown.firstDay
    weekdays :=
      rotateWeekdaysBitmask (computeRecurringRuleWeekdaysBitmask rule.daysOfWeek) (-shown.dayShift)
    state :=
      if !rule.enabled then .disabled
      else if hasRecurringRuleEndDatePassed rule.enabled rule.endDate now (D rule.startDate) then
        .error
      else .scheduled
    seriesLink := computeReportedRecurringRuleToken (reportOf D K rule) }

/-! ## UpdateTimer -/

/-- `GetRecurringRuleById` at the start of a save; `gone` is a 404. -/
inductive FreshRead
  | rule (rule : RecurringRule)
  | gone
  | failed
deriving DecidableEq, Repr

/-- What a save of a recurring rule starts from: Kodi's timer, the rules in
the cache, the reports kept, and the fresh read of the rule. -/
structure RecurringUpdate where
  ruleId : Int
  timer : KodiTimer
  cachedRules : List RecurringRule
  reports : ReportedRecurringRuleHistory
  fresh : FreshRead

/-- `ResolveRecurringRuleNameForUpdate`. -/
def resolveRecurringRuleNameForUpdate (kodiTitle cachedName : ByteString) (ruleId : Int) :
    ByteString :=
  if kodiTitle = recurringRulePlaceholder ruleId then cachedName else kodiTitle

namespace RecurringUpdate

/-- The rule in `m_cachedRecurringRules`. -/
def cachedRule (u : RecurringUpdate) : Option RecurringRule :=
  u.cachedRules.find? fun cached => cached.id == u.ruleId

/-- The report the dialog was opened on. -/
def reported (u : RecurringUpdate) : Option ReportedRecurringRule :=
  u.reports.find u.ruleId u.timer.seriesLink

/-- `baselineRule`, when there is one. -/
def baselineRule (u : RecurringUpdate) : Option RecurringRuleFields :=
  match u.reported with
  | some reported => some reported.fields
  | none => u.cachedRule.map editableFieldsOf

/-- `baselineFields`: the baseline with its name as Kodi knows it. -/
def baselineFields (u : RecurringUpdate) : Option RecurringRuleFields :=
  u.baselineRule.map fun b => { b with name := stripManagedRuleMarker b.name }

/-- The rule as the save knows it: the fresh read, else the cached one. -/
def knownRule (u : RecurringUpdate) : Option RecurringRule :=
  match u.fresh with
  | .rule rule => some rule
  | _ => u.cachedRule

/-- `haveRuleEndDate`. -/
def haveRuleEndDate (u : RecurringUpdate) : Bool := u.knownRule.isSome

/-- `cachedEndDate` after the fresh read. -/
def cachedEndDate (u : RecurringUpdate) : Int := (u.knownRule.map (·.endDate)).getD 0

/-- `cachedWasEnabled` after the fresh read. -/
def cachedWasEnabled (u : RecurringUpdate) : Bool := (u.knownRule.map (·.enabled)).getD false

/-- `cachedName`, empty when the rule is not in the cache. -/
def cachedName (u : RecurringUpdate) : ByteString :=
  (u.cachedRule.map fun cached => stripManagedRuleMarker cached.name).getD []

/-- The timer's fields on the wire. -/
def computedFields (u : RecurringUpdate) (D K : Int → Int) (now : Int) : ComputedRecurringRuleFields :=
  computeRecurringRuleFields u.timer.startTime u.timer.endTime u.timer.firstDay u.timer.weekdays
    (D u.timer.startTime) K now

def enabled (u : RecurringUpdate) : Bool := u.timer.state != .disabled

/-- The start and end times of day the edit is diffed with. -/
def times (u : RecurringUpdate) (fields : ComputedRecurringRuleFields) : Int × Int :=
  resolveRecurringRuleTimesOnEdit u.baselineFields u.timer.startTime u.timer.endTime
    (u.reported.map (·.start)) (u.reported.map (·.stop)) fields.startSeconds fields.endSeconds

/-- `editedFields`. -/
def editedFields (u : RecurringUpdate) (fields : ComputedRecurringRuleFields) :
    RecurringRuleFields where
  channelId := u.timer.clientChannelUid
  name := resolveRecurringRuleNameForUpdate u.timer.title u.cachedName u.ruleId
  daysOfWeek := fields.daysOfWeek
  startTimeOfDaySeconds := (u.times fields).1
  endTimeOfDaySeconds := (u.times fields).2
  startDate := fields.startDate
  enabled := u.enabled

/-- `ownedRule`: by the fresh read's name, else the baseline's. -/
def ownedRule (u : RecurringUpdate) : Bool :=
  match u.fresh with
  | .rule rule => isManagedRuleName rule.name
  | _ => isManagedRuleName ((u.baselineRule.map (·.name)).getD [])

/-- The difference, with a changed name tagged for a rule the add-on owns. -/
def editPatch (u : RecurringUpdate) (fields : ComputedRecurringRuleFields) :
    RecurringRuleEditPatch :=
  let patch := computeRecurringRuleEditPatch u.baselineFields (u.editedFields fields)
  { patch with
    name := patch.name.map fun n => if u.ownedRule then addManagedRuleMarkerBounded n else n }

/-- The end date given to a rule that has none, else 0. -/
def openEndedFallback (u : RecurringUpdate) (startDate cachedEndDate now : Int) : Int :=
  if u.haveRuleEndDate then
    computeEndDateForOpenEndedRuleEdit cachedEndDate startDate now recurringRuleWindowDays
  else 0

/-- The patch as it is sent. -/
def patch (u : RecurringUpdate) (fields : ComputedRecurringRuleFields) (cachedEndDate now : Int) :
    RecurringRuleEditPatch :=
  let openEndedFallback := u.openEndedFallback fields.startDate cachedEndDate now
  if 0 < openEndedFallback then { u.editPatch fields with endDate := some openEndedFallback }
  else u.editPatch fields

end RecurringUpdate

/-- The server, the end date the save works from and its result so far. -/
structure UpdateState where
  server : RuleServer
  cachedEndDate : Int
  ok : Bool

namespace RecurringUpdate

section Save

variable (u : RecurringUpdate) (answers : RuleAnswers)

/-- The extension ahead of a first day at or past the end date; best effort. -/
def extendForFirstDay (startDate : Int) (st : UpdateState) : UpdateState :=
  let requiredEndDate :=
    if u.haveRuleEndDate then
      computeRecurringRuleEndDateForStartDateChange startDate st.cachedEndDate
        recurringRuleWindowDays
    else 0
  if 0 < requiredEndDate then
    let patch := RuleServer.endDatePatch requiredEndDate
    { st with
      server := st.server.send answers u.ruleId patch
      cachedEndDate :=
        if (st.server.answer answers u.ruleId patch).outcome.isOk then requiredEndDate
        else st.cachedEndDate }
  else st

/-- The PATCH; an empty one is not sent and counts as a success. -/
def sendPatch (patch : RecurringRuleEditPatch) (st : UpdateState) : UpdateState :=
  if patch.isEmpty then { st with ok := true }
  else
    let ok := (st.server.answer answers u.ruleId patch).outcome.isOk
    { server := st.server.send answers u.ruleId patch
      cachedEndDate := if ok then patch.endDate.getD st.cachedEndDate else st.cachedEndDate
      ok }

/-- The extension of a rule that is enabled again; best effort. -/
def extendOnEnable (now : Int) (st : UpdateState) : UpdateState :=
  if st.ok && u.haveRuleEndDate &&
      shouldExtendRecurringRuleEndDateOnUpdate u.cachedWasEnabled u.enabled st.cachedEndDate now
        recurringRuleWindowDays then
    let patch := RuleServer.endDatePatch (now + recurringRuleWindowDays * 86400)
    { st with server := st.server.send answers u.ruleId patch }
  else st

/-- `UpdateTimer`'s result: whether it succeeded, and the message it set
itself. -/
structure Result where
  ok : Bool
  error : Option String
  server : RuleServer

/-- The recurring branch of `UpdateTimer`. -/
def updateTimer (D K : Int → Int) (now : Int) (server : RuleServer) : Result :=
  if u.fresh = .gone then
    { ok := false, error := some "this recurring rule no longer exists on Dispatcharr", server }
  else
    let fields := u.computedFields D K now
    if !fields.ok then { ok := false, error := fields.error, server }
    else
      let st := u.extendForFirstDay answers fields.startDate
        { server, cachedEndDate := u.cachedEndDate, ok := true }
      let st := u.sendPatch answers (u.patch fields st.cachedEndDate now) st
      let st := u.extendOnEnable answers now st
      { ok := st.ok, error := none, server := st.server }

end Save

end RecurringUpdate

end DispatcharrPvr
