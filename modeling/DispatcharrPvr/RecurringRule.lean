import DispatcharrPvr.Lib.Decimal

/-!
# RecurringRule

The records the recurring-rule code works on.  A `std::string` is its bytes;
`int` and `time_t` are `Int`.  Of `Recording` only what the renewal and the
adoption read is kept.
-/

namespace DispatcharrPvr

/-- A `std::string`. -/
abbrev ByteString := List UInt8

/-- An ASCII literal of the source. -/
def ascii (s : String) : ByteString := s.toList.map fun c => c.toNat.toUInt8

/-- `std::to_string`. -/
def toByteString (n : Int) : ByteString := ascii (toString n)

theorem toByteString_natCast (n : Nat) : toByteString n = Decimal.digits n := by
  show ascii (Nat.repr n) = Decimal.digits n
  rw [ascii, Nat.repr, String.toList_ofList, Decimal.digits]

/-- `RecurringRule`, as the server last reported it: days 0 (Monday) to 6,
times of day in Dispatcharr's zone, dates as UTC midnights, an end date of 0
for a rule that has none. -/
structure RecurringRule where
  id : Int := 0
  channelId : Int := 0
  name : ByteString := []
  daysOfWeek : List Int := []
  startTimeOfDaySeconds : Int := 0
  endTimeOfDaySeconds : Int := 0
  startDate : Int := 0
  endDate : Int := 0
  enabled : Bool := true
deriving DecidableEq, Repr

/-- The fields of `Recording` that tie it to a rule and to the clock. -/
structure Recording where
  recurringRuleId : Int := 0
  isInProgress : Bool := false
  isUpcoming : Bool := false
  startTime : Int := 0
  endTime : Int := 0
deriving DecidableEq, Repr

/-- `RecurringRuleFields`: what Kodi's timer dialog can change. -/
structure RecurringRuleFields where
  channelId : Int := 0
  name : ByteString := []
  daysOfWeek : List Int := []
  startTimeOfDaySeconds : Int := 0
  endTimeOfDaySeconds : Int := 0
  startDate : Int := 0
  enabled : Bool := true
deriving DecidableEq, Repr

/-- `EditableFieldsOf`. -/
def editableFieldsOf (rule : RecurringRule) : RecurringRuleFields where
  channelId := rule.channelId
  name := rule.name
  daysOfWeek := rule.daysOfWeek
  startTimeOfDaySeconds := rule.startTimeOfDaySeconds
  endTimeOfDaySeconds := rule.endTimeOfDaySeconds
  startDate := rule.startDate
  enabled := rule.enabled

/-- `RecurringRuleEditPatch`: the fields a PATCH sends. -/
structure RecurringRuleEditPatch where
  channelId : Option Int := none
  name : Option ByteString := none
  daysOfWeek : Option (List Int) := none
  startTimeOfDaySeconds : Option Int := none
  endTimeOfDaySeconds : Option Int := none
  startDate : Option Int := none
  enabled : Option Bool := none
  endDate : Option Int := none
deriving DecidableEq, Repr

namespace RecurringRuleEditPatch

/-- `IsEmpty()`. -/
def isEmpty (patch : RecurringRuleEditPatch) : Bool :=
  patch.channelId.isNone && patch.name.isNone && patch.daysOfWeek.isNone &&
    patch.startTimeOfDaySeconds.isNone && patch.endTimeOfDaySeconds.isNone &&
    patch.startDate.isNone && patch.enabled.isNone && patch.endDate.isNone

/-- What a PATCH means: the fields it carries replace the rule's own. -/
def apply (patch : RecurringRuleEditPatch) (rule : RecurringRule) : RecurringRule where
  id := rule.id
  channelId := patch.channelId.getD rule.channelId
  name := patch.name.getD rule.name
  daysOfWeek := patch.daysOfWeek.getD rule.daysOfWeek
  startTimeOfDaySeconds := patch.startTimeOfDaySeconds.getD rule.startTimeOfDaySeconds
  endTimeOfDaySeconds := patch.endTimeOfDaySeconds.getD rule.endTimeOfDaySeconds
  startDate := patch.startDate.getD rule.startDate
  endDate := patch.endDate.getD rule.endDate
  enabled := patch.enabled.getD rule.enabled

end RecurringRuleEditPatch

end DispatcharrPvr
