import DispatcharrPvr.RecurringRule
import DispatcharrPvr.TimeUtil.Bijection

/-!
# TimeZoneUtil

The UTC offset of the time zones the add-on knows (`TimeZoneUtil.cpp`): the
rules of the United States and Canada and of the European Union, computed from
the weekdays of their months.

`timegm` is the UTC civil seconds.
-/

namespace DispatcharrPvr

open Gregorian

/-- `PortableTimeGm`. -/
def portableTimeGm (tmVal : Tm) : Int := utcCivilSeconds tmVal

/-! ## weekdays of a month -/

/-- `NthWeekdayOfMonth`. -/
def nthWeekdayOfMonth (year month0 weekday n : Int) : Int :=
  let first : Tm := { tmYear := year - 1900, tmMon := month0, tmMday := 1 }
  let resolved := gmTimeUtc (portableTimeGm first) {}
  let offset := (weekday - resolved.tmWday + 7).tmod 7
  1 + offset + (n - 1) * 7

/-- `LastWeekdayOfMonth`. -/
def lastWeekdayOfMonth (year month0 weekday : Int) : Int :=
  let days := daysInMonthTable.getD month0.toNat 0
  let days := if month0 = 1 ∧ isLeapYear year then 29 else days
  let last : Tm := { tmYear := year - 1900, tmMon := month0, tmMday := days }
  let resolved := gmTimeUtc (portableTimeGm last) {}
  let diff := (resolved.tmWday - weekday + 7).tmod 7
  days - diff

/-! ## the rules -/

/-- `IsUsCanadaDstInEffect`. -/
def isUsCanadaDstInEffect (nowUtc standardOffsetMinutes : Int) : Bool :=
  let nowTm := gmTimeUtc nowUtc {}
  let year := nowTm.tmYear + 1900
  let springLocal : Tm :=
    { tmYear := year - 1900, tmMon := 2, tmMday := nthWeekdayOfMonth year 2 0 2, tmHour := 2 }
  let springUtc := portableTimeGm springLocal - standardOffsetMinutes * 60
  let fallLocal : Tm :=
    { tmYear := year - 1900, tmMon := 10, tmMday := nthWeekdayOfMonth year 10 0 1, tmHour := 2 }
  let daylightOffsetMinutes := standardOffsetMinutes + 60
  let fallUtc := portableTimeGm fallLocal - daylightOffsetMinutes * 60
  springUtc ≤ nowUtc ∧ nowUtc < fallUtc

/-- `IsEuDstInEffect`. -/
def isEuDstInEffect (nowUtc : Int) : Bool :=
  let nowTm := gmTimeUtc nowUtc {}
  let year := nowTm.tmYear + 1900
  let springUtcTm : Tm :=
    { tmYear := year - 1900, tmMon := 2, tmMday := lastWeekdayOfMonth year 2 0, tmHour := 1 }
  let springUtc := portableTimeGm springUtcTm
  let fallUtcTm : Tm :=
    { tmYear := year - 1900, tmMon := 9, tmMday := lastWeekdayOfMonth year 9 0, tmHour := 1 }
  let fallUtc := portableTimeGm fallUtcTm
  springUtc ≤ nowUtc ∧ nowUtc < fallUtc

/-- `DstFamily`. -/
inductive DstFamily
  | none
  | usCanada
  | eu
deriving DecidableEq, Repr

/-- `kPermanentDaylightFromNov2026Utc`. -/
def permanentDaylightFromNov2026Utc : Int := 1793491200

/-- `KnownTimeZone`. -/
structure KnownTimeZone where
  ianaName : ByteString
  standardOffsetMinutes : Int
  family : DstFamily
  permanentDaylightFromUtc : Int
deriving DecidableEq, Repr

/-- `kKnownTimeZones`. -/
def knownTimeZones : List KnownTimeZone :=
  [
    ⟨ascii "America/New_York", -300, .usCanada, 0⟩,
    ⟨ascii "America/Chicago", -360, .usCanada, 0⟩,
    ⟨ascii "America/Denver", -420, .usCanada, 0⟩,
    ⟨ascii "America/Los_Angeles", -480, .usCanada, 0⟩,
    ⟨ascii "America/Anchorage", -540, .usCanada, 0⟩,
    ⟨ascii "America/Phoenix", -420, .none, 0⟩,
    ⟨ascii "Pacific/Honolulu", -600, .none, 0⟩,
    ⟨ascii "America/Detroit", -300, .usCanada, 0⟩,
    ⟨ascii "America/Indiana/Indianapolis", -300, .usCanada, 0⟩,
    ⟨ascii "America/Boise", -420, .usCanada, 0⟩,
    ⟨ascii "America/Toronto", -300, .usCanada, 0⟩,
    ⟨ascii "America/Winnipeg", -360, .usCanada, permanentDaylightFromNov2026Utc⟩,
    ⟨ascii "America/Edmonton", -420, .usCanada, permanentDaylightFromNov2026Utc⟩,
    ⟨ascii "America/Vancouver", -480, .usCanada, permanentDaylightFromNov2026Utc⟩,
    ⟨ascii "America/Halifax", -240, .usCanada, 0⟩,
    ⟨ascii "America/Regina", -360, .none, 0⟩,
    ⟨ascii "America/Mexico_City", -360, .none, 0⟩,
    ⟨ascii "Europe/London", 0, .eu, 0⟩,
    ⟨ascii "Europe/Dublin", 0, .eu, 0⟩,
    ⟨ascii "Europe/Lisbon", 0, .eu, 0⟩,
    ⟨ascii "Europe/Paris", 60, .eu, 0⟩,
    ⟨ascii "Europe/Berlin", 60, .eu, 0⟩,
    ⟨ascii "Europe/Madrid", 60, .eu, 0⟩,
    ⟨ascii "Europe/Rome", 60, .eu, 0⟩,
    ⟨ascii "Europe/Amsterdam", 60, .eu, 0⟩,
    ⟨ascii "Europe/Brussels", 60, .eu, 0⟩,
    ⟨ascii "Europe/Vienna", 60, .eu, 0⟩,
    ⟨ascii "Europe/Zurich", 60, .eu, 0⟩,
    ⟨ascii "Europe/Warsaw", 60, .eu, 0⟩,
    ⟨ascii "Europe/Prague", 60, .eu, 0⟩,
    ⟨ascii "Europe/Stockholm", 60, .eu, 0⟩,
    ⟨ascii "Europe/Copenhagen", 60, .eu, 0⟩,
    ⟨ascii "Europe/Oslo", 60, .eu, 0⟩,
    ⟨ascii "Europe/Budapest", 60, .eu, 0⟩,
    ⟨ascii "Europe/Helsinki", 120, .eu, 0⟩,
    ⟨ascii "Europe/Athens", 120, .eu, 0⟩,
    ⟨ascii "Europe/Bucharest", 120, .eu, 0⟩,
    ⟨ascii "Europe/Riga", 120, .eu, 0⟩,
    ⟨ascii "Europe/Vilnius", 120, .eu, 0⟩,
    ⟨ascii "Europe/Sofia", 120, .eu, 0⟩,
    ⟨ascii "Europe/Kyiv", 120, .eu, 0⟩,
    ⟨ascii "Asia/Tokyo", 540, .none, 0⟩,
    ⟨ascii "Asia/Shanghai", 480, .none, 0⟩,
    ⟨ascii "Asia/Hong_Kong", 480, .none, 0⟩,
    ⟨ascii "Asia/Singapore", 480, .none, 0⟩,
    ⟨ascii "Asia/Kolkata", 330, .none, 0⟩,
    ⟨ascii "Asia/Dubai", 240, .none, 0⟩,
    ⟨ascii "Asia/Karachi", 300, .none, 0⟩,
    ⟨ascii "Africa/Johannesburg", 120, .none, 0⟩,
    ⟨ascii "Africa/Lagos", 60, .none, 0⟩,
    ⟨ascii "UTC", 0, .none, 0⟩,
    ⟨ascii "Etc/UTC", 0, .none, 0⟩]

/-- `kZoneAliases`. -/
def zoneAliases : List (ByteString × ByteString) :=
  [
    (ascii "US/Eastern", ascii "America/New_York"),
    (ascii "US/Central", ascii "America/Chicago"),
    (ascii "US/Mountain", ascii "America/Denver"),
    (ascii "Navajo", ascii "America/Denver"),
    (ascii "America/Shiprock", ascii "America/Denver"),
    (ascii "US/Pacific", ascii "America/Los_Angeles"),
    (ascii "US/Alaska", ascii "America/Anchorage"),
    (ascii "US/Arizona", ascii "America/Phoenix"),
    (ascii "US/Hawaii", ascii "Pacific/Honolulu"),
    (ascii "Pacific/Johnston", ascii "Pacific/Honolulu"),
    (ascii "US/Michigan", ascii "America/Detroit"),
    (ascii "America/Indianapolis", ascii "America/Indiana/Indianapolis"),
    (ascii "America/Fort_Wayne", ascii "America/Indiana/Indianapolis"),
    (ascii "US/East-Indiana", ascii "America/Indiana/Indianapolis"),
    (ascii "Canada/Eastern", ascii "America/Toronto"),
    (ascii "America/Montreal", ascii "America/Toronto"),
    (ascii "America/Nipigon", ascii "America/Toronto"),
    (ascii "America/Thunder_Bay", ascii "America/Toronto"),
    (ascii "Canada/Central", ascii "America/Winnipeg"),
    (ascii "America/Rainy_River", ascii "America/Winnipeg"),
    (ascii "Canada/Mountain", ascii "America/Edmonton"),
    (ascii "America/Yellowknife", ascii "America/Edmonton"),
    (ascii "Canada/Pacific", ascii "America/Vancouver"),
    (ascii "Canada/Atlantic", ascii "America/Halifax"),
    (ascii "Canada/Saskatchewan", ascii "America/Regina"),
    (ascii "Mexico/General", ascii "America/Mexico_City"),
    (ascii "GB", ascii "Europe/London"),
    (ascii "GB-Eire", ascii "Europe/London"),
    (ascii "Europe/Belfast", ascii "Europe/London"),
    (ascii "Eire", ascii "Europe/Dublin"),
    (ascii "Portugal", ascii "Europe/Lisbon"),
    (ascii "Europe/San_Marino", ascii "Europe/Rome"),
    (ascii "Europe/Vatican", ascii "Europe/Rome"),
    (ascii "Europe/Busingen", ascii "Europe/Zurich"),
    (ascii "Poland", ascii "Europe/Warsaw"),
    (ascii "Europe/Bratislava", ascii "Europe/Prague"),
    (ascii "Arctic/Longyearbyen", ascii "Europe/Oslo"),
    (ascii "Atlantic/Jan_Mayen", ascii "Europe/Oslo"),
    (ascii "Europe/Mariehamn", ascii "Europe/Helsinki"),
    (ascii "Europe/Kiev", ascii "Europe/Kyiv"),
    (ascii "Europe/Uzhgorod", ascii "Europe/Kyiv"),
    (ascii "Europe/Zaporozhye", ascii "Europe/Kyiv"),
    (ascii "Japan", ascii "Asia/Tokyo"),
    (ascii "PRC", ascii "Asia/Shanghai"),
    (ascii "Asia/Chongqing", ascii "Asia/Shanghai"),
    (ascii "Asia/Chungking", ascii "Asia/Shanghai"),
    (ascii "Asia/Harbin", ascii "Asia/Shanghai"),
    (ascii "Hongkong", ascii "Asia/Hong_Kong"),
    (ascii "Singapore", ascii "Asia/Singapore"),
    (ascii "Asia/Calcutta", ascii "Asia/Kolkata"),
    (ascii "Etc/UCT", ascii "Etc/UTC"),
    (ascii "Etc/Universal", ascii "Etc/UTC"),
    (ascii "Etc/Zulu", ascii "Etc/UTC"),
    (ascii "UCT", ascii "Etc/UTC"),
    (ascii "Universal", ascii "Etc/UTC"),
    (ascii "Zulu", ascii "Etc/UTC")]

/-- `CanonicalKnownZoneName`. -/
def canonicalKnownZoneName (ianaZoneName : ByteString) : ByteString :=
  match zoneAliases.find? (fun zoneAlias => zoneAlias.1 == ianaZoneName) with
  | some zoneAlias => zoneAlias.2
  | none => ianaZoneName

/-- The offset of a zone of the table. -/
def KnownTimeZone.offsetMinutes (zone : KnownTimeZone) (nowUtc : Int)
    (applyZoneRuleChanges : Bool) : Int :=
  if applyZoneRuleChanges ∧ zone.permanentDaylightFromUtc ≠ 0 ∧
      zone.permanentDaylightFromUtc ≤ nowUtc then
    zone.standardOffsetMinutes + 60
  else
    match zone.family with
    | .none => zone.standardOffsetMinutes
    | .usCanada =>
        if isUsCanadaDstInEffect nowUtc zone.standardOffsetMinutes then
          zone.standardOffsetMinutes + 60
        else zone.standardOffsetMinutes
    | .eu =>
        if isEuDstInEffect nowUtc then zone.standardOffsetMinutes + 60
        else zone.standardOffsetMinutes

/-- `ComputeKnownZoneOffsetMinutes`; nothing where it returns `false`. -/
def computeKnownZoneOffsetMinutes (requestedZoneName : ByteString) (nowUtc : Int)
    (applyZoneRuleChanges : Bool) : Option Int :=
  (knownTimeZones.find? fun zone => canonicalKnownZoneName requestedZoneName == zone.ianaName).map
    fun zone => zone.offsetMinutes nowUtc applyZoneRuleChanges

end DispatcharrPvr
