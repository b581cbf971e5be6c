import DispatcharrPvr.Lib.Decimal
import DispatcharrPvr.RecurringRule
import DispatcharrPvr.TimeUtil

/-!
# DateTimeFormat

The times of the Dispatcharr API as text (`DateTimeFormat.cpp`): date-times with
an offset, dates and times of day.
-/

namespace DispatcharrPvr

/-- `std::string::substr` of a position inside the string. -/
def substr (s : ByteString) (pos count : Nat) : ByteString := (s.drop pos).take count

/-! ## encoders -/

/-- `kFirst`. -/
def firstFormattedSecond : Int := utcCivilSeconds { tmYear := -1900, tmMday := 1 }

/-- `kLast`. -/
def lastFormattedSecond : Int :=
  utcCivilSeconds
    { tmYear := 9999 - 1900, tmMon := 11, tmMday := 31, tmHour := 23, tmMin := 59, tmSec := 59 }

/-- `UtcFieldsForFormatting`. -/
def utcFieldsForFormatting (t : Int) : Tm :=
  gmTimeUtc (min (max t firstFormattedSecond) lastFormattedSecond) {}

/-- `"%04d-%02d-%02d"`. -/
def dateText (tmVal : Tm) : ByteString :=
  Decimal.zeroPadded 4 (tmVal.tmYear + 1900) ++ [45] ++ Decimal.zeroPadded 2 (tmVal.tmMon + 1) ++
    [45] ++ Decimal.zeroPadded 2 tmVal.tmMday

/-- `"%02d:%02d:%02d"`. -/
def timeOfDayText (hour min sec : Int) : ByteString :=
  Decimal.zeroPadded 2 hour ++ [58] ++ Decimal.zeroPadded 2 min ++ [58] ++ Decimal.zeroPadded 2 sec

/-- The two joined by a `T`. -/
def dateTimeText (tmVal : Tm) : ByteString :=
  dateText tmVal ++ [84] ++ timeOfDayText tmVal.tmHour tmVal.tmMin tmVal.tmSec

/-- `IsoFromTime`. -/
def isoFromTime (t : Int) : ByteString := dateTimeText (utcFieldsForFormatting t) ++ [90]

/-- `TimeOfDayString`. -/
def timeOfDayString (secondsSinceMidnight : Int) : ByteString :=
  let s := secondsSinceMidnight.tmod 86400
  let s := if s < 0 then s + 86400 else s
  timeOfDayText (s.tdiv 3600) ((s.tdiv 60).tmod 60) (s.tmod 60)

/-- `DateStringFromTime`. -/
def dateStringFromTime (t : Int) : ByteString := dateText (utcFieldsForFormatting t)

/-! ## TimeFromIso -/

/-- The bounds of the fields of a time; a leap second is tolerated. -/
def hasFieldOutOfRange (tmVal : Tm) : Bool :=
  tmVal.tmMon < 0 ∨ 11 < tmVal.tmMon ∨ tmVal.tmMday < 1 ∨ 31 < tmVal.tmMday ∨ tmVal.tmHour < 0 ∨
    23 < tmVal.tmHour ∨ tmVal.tmMin < 0 ∨ 59 < tmVal.tmMin ∨ tmVal.tmSec < 0 ∨ 60 < tmVal.tmSec ∨
    !isValidCivilDate (tmVal.tmYear + 1900) (tmVal.tmMon + 1) tmVal.tmMday

/-- The fields at their positions; nothing where `std::stoi` throws. -/
def isoFields (isoStr : ByteString) : Option Tm := do
  let year ← Decimal.stoi (substr isoStr 0 4)
  let mon ← Decimal.stoi (substr isoStr 5 2)
  let mday ← Decimal.stoi (substr isoStr 8 2)
  let hour ← Decimal.stoi (substr isoStr 11 2)
  let min ← Decimal.stoi (substr isoStr 14 2)
  let sec ← Decimal.stoi (substr isoStr 17 2)
  return { tmYear := year - 1900, tmMon := mon - 1, tmMday := mday, tmHour := hour, tmMin := min,
           tmSec := sec }

/-- `readTwoDigits`; nothing where it returns -1. -/
def readTwoDigits : ByteString → Option Int
  | a :: b :: _ =>
      if Decimal.isDigit a && Decimal.isDigit b then
        some ((a.toNat - 48 : Int) * 10 + (b.toNat - 48))
      else none
  | _ => none

/-- The colon that `+HHMM` does not have. -/
def skipColon : ByteString → ByteString
  | 58 :: rest => rest
  | text => text

/-- The seconds of an offset behind its sign, 0 for one that is not an offset. -/
def readOffset (text : ByteString) : Int :=
  match readTwoDigits text with
  | none => 0
  | some offsetHours =>
      match readTwoDigits (skipColon (text.drop 2)) with
      | none => 0
      | some offsetMinutes =>
          if offsetHours ≤ 23 ∧ offsetMinutes ≤ 59 then offsetHours * 3600 + offsetMinutes * 60 else 0

/-- The fraction of a second, which is not read. -/
def skipFraction : ByteString → ByteString
  | 46 :: rest => rest.dropWhile Decimal.isDigit
  | text => text

/-- The seconds of the offset behind a date-time and its fraction. -/
def isoOffset (text : ByteString) : Int :=
  match skipFraction text with
  | 43 :: rest => readOffset rest
  | 45 :: rest => -readOffset rest
  | _ => 0

/-- `TimeFromIso`. -/
def timeFromIso (isoStr : ByteString) : Int :=
  if isoStr.length < 19 then 0
  else
    match isoFields isoStr with
    | none => 0
    | some tmVal =>
        if hasFieldOutOfRange tmVal then 0
        else portableTimeGmSaturating tmVal - isoOffset (isoStr.drop 19)

/-! ## SecondsSinceMidnightFromString -/

/-- The inner loop: the number from `value` on and what follows its digits;
nothing where it exceeds its bound. -/
def readBounded (maxField value : Int) : ByteString → Option (Int × ByteString)
  | [] => some (value, [])
  | b :: rest =>
      if Decimal.isDigit b then
        let value := value * 10 + (b.toNat - 48)
        if maxField < value then none else readBounded maxField value rest
      else some (value, b :: rest)

/-- The outer loop: the fields read, one for each bound at most; nothing where
one exceeds its bound. -/
def readTimeFields : List Int → ByteString → Option (List Int)
  | [], _ => some []
  | maxField :: maxFields, text =>
      let text := text.dropWhile Decimal.isSpace
      match readBounded maxField 0 text with
      | none => none
      | some (value, rest) =>
          -- no digits here: stop
          if rest.length = text.length then some []
          else
            match rest with
            | 58 :: rest => (readTimeFields maxFields rest).map (value :: ·)
            | _ => some [value]

/-- `SecondsSinceMidnightFromString`. -/
def secondsSinceMidnightFromString (hms : ByteString) : Int :=
  match readTimeFields [23, 59, 59] hms with
  | none => 0
  | some fields =>
      if fields.length < 2 then 0
      else fields.getD 0 0 * 3600 + fields.getD 1 0 * 60 + fields.getD 2 0

/-! ## TimeFromDateString -/

/-- The fields of a date at their positions; nothing where `std::stoi` throws. -/
def dateFields (dateStr : ByteString) : Option Tm := do
  let year ← Decimal.stoi (substr dateStr 0 4)
  let mon ← Decimal.stoi (substr dateStr 5 2)
  let mday ← Decimal.stoi (substr dateStr 8 2)
  return { tmYear := year - 1900, tmMon := mon - 1, tmMday := mday }

/-- `TimeFromDateString`. -/
def timeFromDateString (dateStr : ByteString) : Int :=
  if dateStr.length < 10 then 0
  else
    match dateFields dateStr with
    | none => 0
    | some tmVal =>
        if !isValidCivilDate (tmVal.tmYear + 1900) (tmVal.tmMon + 1) tmVal.tmMday then 0
        else portableTimeGmSaturating tmVal

end DispatcharrPvr
