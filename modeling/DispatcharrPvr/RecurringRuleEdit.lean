import DispatcharrPvr.Lib.Containers
import DispatcharrPvr.Lib.TruncDiv
import DispatcharrPvr.RecurringRule

/-!
# RecurringRuleEdit

What a save of a recurring rule from Kodi's timer dialog sends: the difference
between the report the dialog was filled from and what the user saved
(`RecurringRuleEdit.cpp`).

The reports are kept per rule, oldest first and at most eight, and one is found
again by the token the dialog hands back.  `m_reports` and the argument of
`Record` are `std::map`s, here the functions they denote.
-/

namespace DispatcharrPvr

open Containers TruncDiv

/-! ## the difference -/

/-- `SameCalendarDay`. -/
def sameCalendarDay (a b : Int) : Bool := a.tdiv 86400 == b.tdiv 86400

/-- `SameTimeOfDay`. -/
def sameTimeOfDay (a b : Int) : Bool := floorMod a 86400 == floorMod b 86400

/-- `ResolveRecurringRuleTimesOnEdit`: a time handed back exactly as it was
shown keeps the stored time of day. -/
def resolveRecurringRuleTimesOnEdit (baseline : Option RecurringRuleFields)
    (timerStart timerEnd : Int) (reportedStart reportedEnd : Option Int)
    (derivedStartSeconds derivedEndSeconds : Int) : Int × Int :=
  let startSeconds :=
    match baseline with
    | some b => if reportedStart = some timerStart then b.startTimeOfDaySeconds else derivedStartSeconds
    | none => derivedStartSeconds
  let endSeconds :=
    match baseline with
    | some b => if reportedEnd = some timerEnd then b.endTimeOfDaySeconds else derivedEndSeconds
    | none => derivedEndSeconds
  (startSeconds, endSeconds)

/-- `ComputeRecurringRuleEditPatch`. -/
def computeRecurringRuleEditPatch (baseline : Option RecurringRuleFields)
    (edited : RecurringRuleFields) : RecurringRuleEditPatch :=
  match baseline with
  | none =>
      { channelId := some edited.channelId
        name := some edited.name
        daysOfWeek := some edited.daysOfWeek
        startTimeOfDaySeconds := some edited.startTimeOfDaySeconds
        endTimeOfDaySeconds := some edited.endTimeOfDaySeconds
        startDate := some edited.startDate
        enabled := some edited.enabled }
  | some baseline =>
      { channelId := if edited.channelId ≠ baseline.channelId then some edited.channelId else none
        name := if edited.name ≠ baseline.name then some edited.name else none
        -- compared as sets: the server stores the days sorted and without repeats
        daysOfWeek :=
          if sortUnique edited.daysOfWeek ≠ sortUnique baseline.daysOfWeek then
            some edited.daysOfWeek
          else none
        startTimeOfDaySeconds :=
          if !sameTimeOfDay edited.startTimeOfDaySeconds baseline.startTimeOfDaySeconds then
            some edited.startTimeOfDaySeconds
          else none
        endTimeOfDaySeconds :=
          if !sameTimeOfDay edited.endTimeOfDaySeconds baseline.endTimeOfDaySeconds then
            some edited.endTimeOfDaySeconds
          else none
        startDate :=
          if !sameCalendarDay edited.startDate baseline.startDate then some edited.startDate
          else none
        enabled := if edited.enabled ≠ baseline.enabled then some edited.enabled else none }

/-- `ComputeEndDateForOpenEndedRuleEdit`. -/
def computeEndDateForOpenEndedRuleEdit (currentEndDate startDate now windowDays : Int) : Int :=
  if 0 < currentEndDate then 0 else max now startDate + windowDays * 86400

/-! ## the reports -/

/-- `ReportedRecurringRule`: what `GetTimers` showed Kodi for a rule. -/
structure ReportedRecurringRule where
  fields : RecurringRuleFields
  start : Int
  stop : Int
deriving DecidableEq, Repr

/-- The `mix` lambda: FNV-1a over the bytes and a separator. -/
def fnvMix (h : UInt64) (s : ByteString) : UInt64 :=
  let byte (h : UInt64) (c : UInt8) := (h ^^^ c.toUInt64) * 1099511628211
  byte (s.foldl byte h) 0x1f

/-- `%016llx`. -/
def hex16 (h : UInt64) : ByteString :=
  (List.range 16).map fun i =>
    let digit := (h >>> (60 - 4 * i).toUInt64) &&& 0xf
    if digit < 10 then digit.toUInt8 + 48 else digit.toUInt8 + 87

/-- `ComputeReportedRecurringRuleToken`. -/
def computeReportedRecurringRuleToken (report : ReportedRecurringRule) : ByteString :=
  let f := report.fields
  let days := f.daysOfWeek.flatMap fun d => toByteString d ++ ascii ","
  let h :=
    [toByteString f.channelId, f.name, days, toByteString f.startTimeOfDaySeconds,
      toByteString f.endTimeOfDaySeconds, toByteString f.startDate,
      ascii (if f.enabled then "1" else "0"), toByteString report.start,
      toByteString report.stop].foldl fnvMix 1469598103934665603
  ascii "rr-" ++ hex16 h

/-- `ReportedRecurringRuleHistory::Entry`. -/
structure ReportEntry where
  token : ByteString
  report : ReportedRecurringRule
deriving DecidableEq, Repr

def reportEntry (report : ReportedRecurringRule) : ReportEntry :=
  ⟨computeReportedRecurringRuleToken report, report⟩

/-- `kMaxReportsPerRule`. -/
def maxReportsPerRule : Nat := 8

/-- `m_reports`. -/
abbrev ReportedRecurringRuleHistory := Int → Option (List ReportEntry)

namespace ReportedRecurringRuleHistory

/-- `Record`: a rule missing from the report is forgotten, each other rule's
report becomes its newest. -/
def record (m : ReportedRecurringRuleHistory) (report : Int → Option ReportedRecurringRule) :
    ReportedRecurringRuleHistory :=
  fun ruleId =>
    (report ruleId).map fun rule =>
      touch maxReportsPerRule ReportEntry.token ((m ruleId).getD []) (reportEntry rule)

/-- `Find`: the report with the token, else the rule's newest. -/
def find (m : ReportedRecurringRuleHistory) (ruleId : Int) (token : ByteString) :
    Option ReportedRecurringRule :=
  match m ruleId with
  | none => none
  | some entries =>
      match entries.find? (fun e => e.token = token) with
      | some e => some e.report
      | none => entries.getLast?.map (·.report)

end ReportedRecurringRuleHistory

end DispatcharrPvr
