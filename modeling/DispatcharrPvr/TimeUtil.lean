import DispatcharrPvr.JsonFieldUtil
import DispatcharrPvr.Lib.Gregorian
import DispatcharrPvr.Lib.TruncDiv

/-!
# TimeUtil

Civil time without the C library (`TimeUtil.h`): the seconds of a broken-down
UTC time, clamped where a `time_t` needs it, and the broken-down time of a
number of seconds.

`int` and `long long` are `Int`: every `tm` field is an `int` and every number
of seconds an `int64_t`, and neither function leaves the 64 bits on these.  Two
lemmas carry everything above this module: `utcCivilSeconds_eq` and
`utcCivilFromSeconds_dayNumber` read them over the calendar.
-/

namespace DispatcharrPvr

open TruncDiv Gregorian

/-- `struct tm`. -/
structure Tm where
  tmYear : Int := 0
  tmMon : Int := 0
  tmMday : Int := 0
  tmHour : Int := 0
  tmMin : Int := 0
  tmSec : Int := 0
  tmWday : Int := 0
  tmYday : Int := 0
  tmIsdst : Int := 0
deriving DecidableEq, Repr

/-- `kDaysInMonth`. -/
def daysInMonthTable : List Int := [31, 28, 31, 30, 31, 30, 31, 31, 30, 31, 30, 31]

/-- The leap year test of the source. -/
def isLeapYear (year : Int) : Bool :=
  (year.tmod 4 = 0 ∧ year.tmod 100 ≠ 0) ∨ year.tmod 400 = 0

/-- `IsValidCivilDate`. -/
def isValidCivilDate (year month day : Int) : Bool :=
  if month < 1 ∨ 12 < month ∨ day < 1 then false
  else
    let days := daysInMonthTable.getD (month - 1).toNat 0
    let days := if month = 2 ∧ isLeapYear year then 29 else days
    decide (day ≤ days)

/-! ## UtcCivilSeconds -/

/-- The year, and the month of it from 0, that the fields name. -/
def civilMonth (tmVal : Tm) : Int × Int :=
  let year := 1900 + tmVal.tmYear + tmVal.tmMon.tdiv 12
  let month := tmVal.tmMon.tmod 12
  if month < 0 then (year - 1, month + 12) else (year, month)

/-- The days from the epoch to the first of a month. -/
def daysToMonth (year month : Int) : Int :=
  let y := if month < 2 then year - 1 else year
  let era := (if 0 ≤ y then y else y - 399).tdiv 400
  let yearOfEra := y - era * 400
  let monthFromMarch := if month < 2 then month + 10 else month - 2
  let dayOfYear := (153 * monthFromMarch + 2).tdiv 5
  let dayOfEra := yearOfEra * 365 + yearOfEra.tdiv 4 - yearOfEra.tdiv 100 + dayOfYear
  era * 146097 + dayOfEra - 719468

/-- `UtcCivilSeconds`. -/
def utcCivilSeconds (tmVal : Tm) : Int :=
  let (year, month) := civilMonth tmVal
  let days := daysToMonth year month + (tmVal.tmMday - 1)
  days * 86400 + tmVal.tmHour * 3600 + tmVal.tmMin * 60 + tmVal.tmSec

/-- `kLatestRepresentableTime` of a 64-bit `time_t`. -/
def latestRepresentableTime : Int := 2305843009213693951

/-- `kEarliestRepresentableTime` of a 64-bit `time_t`. -/
def earliestRepresentableTime : Int := -2305843009213693952

/-- `SaturatingTimeGm`. -/
def saturatingTimeGm (tmVal : Tm) (latest earliest : Int) : Int :=
  let seconds := utcCivilSeconds tmVal
  if latest < seconds then latest
  else if seconds < earliest then earliest
  else seconds

/-- `PortableTimeGmSaturating`, with a 64-bit `time_t`. -/
def portableTimeGmSaturating (tmVal : Tm) : Int :=
  saturatingTimeGm tmVal latestRepresentableTime earliestRepresentableTime

/-! ## UtcCivilFromSeconds -/

/-- The year, the month from 1 and the day of a number of days. -/
def civilFromDays (days : Int) : Int × Int × Int :=
  let z := days + 719468
  let era := (if 0 ≤ z then z else z - 146096).tdiv 146097
  let dayOfEra := z - era * 146097
  let yearOfEra :=
    (dayOfEra - dayOfEra.tdiv 1460 + dayOfEra.tdiv 36524 - dayOfEra.tdiv 146096).tdiv 365
  let dayOfYearFromMarch := dayOfEra - (365 * yearOfEra + yearOfEra.tdiv 4 - yearOfEra.tdiv 100)
  let monthFromMarch := (5 * dayOfYearFromMarch + 2).tdiv 153
  let day := dayOfYearFromMarch - (153 * monthFromMarch + 2).tdiv 5 + 1
  let month := if monthFromMarch < 10 then monthFromMarch + 3 else monthFromMarch - 9
  let year := yearOfEra + era * 400 + (if month ≤ 2 then 1 else 0)
  (year, month, day)

/-- `UtcCivilFromSeconds`; nothing where it returns `false` and leaves the
fields alone. -/
def utcCivilFromSeconds (seconds : Int) : Option Tm :=
  let days := seconds.tdiv 86400
  let secondOfDay := seconds.tmod 86400
  let (days, secondOfDay) :=
    if secondOfDay < 0 then (days - 1, secondOfDay + 86400) else (days, secondOfDay)
  let (year, month, day) := civilFromDays days
  if intMax < year - 1900 ∨ year - 1900 < intLowest then none
  else
    let january1 : Tm := { tmYear := year - 1900, tmMday := 1 }
    some
      { tmYear := year - 1900
        tmMon := month - 1
        tmMday := day
        tmHour := secondOfDay.tdiv 3600
        tmMin := (secondOfDay.tdiv 60).tmod 60
        tmSec := secondOfDay.tmod 60
        tmWday := (days.tmod 7 + 11).tmod 7
        tmYday := days - (utcCivilSeconds january1).tdiv 86400 }

/-- `GmTimeUtc`: the fields it leaves behind. -/
def gmTimeUtc (t : Int) (tmVal : Tm) : Tm := (utcCivilFromSeconds t).getD tmVal

/-! ## the calendar behind them -/

theorem isLeapYear_eq (year : Int) : isLeapYear year = decide (IsLeap year) := by
  have hmod : ∀ m : Int, year.tmod m = 0 ↔ year % m = 0 := fun m => by
    rw [← Int.dvd_iff_tmod_eq_zero, Int.dvd_iff_emod_eq_zero]
  rw [isLeapYear, decide_eq_decide, hmod, ne_eq, hmod, hmod, IsLeap]

/-- The table is the calendar's. -/
theorem daysInMonthTable_eq {year month : Int} (h1 : 1 ≤ month) (h12 : month ≤ 12) :
    (if month = 2 ∧ isLeapYear year then 29 else daysInMonthTable.getD (month - 1).toNat 0) =
      daysInMonth year month := by
  have hmonth : month = 1 ∨ month = 2 ∨ month = 3 ∨ month = 4 ∨ month = 5 ∨ month = 6 ∨ month = 7 ∨
      month = 8 ∨ month = 9 ∨ month = 10 ∨ month = 11 ∨ month = 12 := by omega
  rw [isLeapYear_eq]
  rcases hmonth with rfl | rfl | rfl | rfl | rfl | rfl | rfl | rfl | rfl | rfl | rfl | rfl <;>
    simp [daysInMonthTable, daysInMonth]

theorem isValidCivilDate_iff {year month day : Int} :
    isValidCivilDate year month day = true ↔ IsDate year month day := by
  rw [isValidCivilDate]
  split
  · next hout =>
      simp only [Bool.false_eq_true, IsDate, false_iff]
      omega
  · next hin =>
      have htable := @daysInMonthTable_eq year month (by omega) (by omega)
      simp only [htable, decide_eq_true_iff, IsDate]
      omega

theorem civilMonth_eq (tmVal : Tm) :
    civilMonth tmVal = (1900 + tmVal.tmYear + tmVal.tmMon / 12, tmVal.tmMon % 12) := by
  have hcorrected := tmod_corrected (a := tmVal.tmMon) (m := 12) (by decide)
  simp only [civilMonth]
  split at hcorrected
  · next hneg =>
      rw [if_pos hneg, ← (Prod.mk.inj hcorrected).1, ← (Prod.mk.inj hcorrected).2]
      exact Prod.ext (by simp only; omega) rfl
  · next hneg => rw [if_neg hneg, ← (Prod.mk.inj hcorrected).1, ← (Prod.mk.inj hcorrected).2]

/-- The years before a 1 March, counted over eras of 400 years. -/
theorem eraDays_eq (y : Int) :
    y / 400 * 146097 + ((y - y / 400 * 400) * 365 + (y - y / 400 * 400) / 4 -
      (y - y / 400 * 400) / 100) - 719468 = yearStart (y + 1) - 306 := by
  rw [yearStart]
  omega

/-- The days from 1 March to the first of a month of the same year. -/
theorem daysFromMarch_eq {m : Int} (h0 : 0 ≤ m) (h9 : m ≤ 9) :
    (153 * m + 2) / 5 + 61 = (367 * (m + 3) - 362) / 12 := by
  have hmonth : m = 0 ∨ m = 1 ∨ m = 2 ∨ m = 3 ∨ m = 4 ∨ m = 5 ∨ m = 6 ∨ m = 7 ∨ m = 8 ∨
      m = 9 := by omega
  rcases hmonth with rfl | rfl | rfl | rfl | rfl | rfl | rfl | rfl | rfl | rfl <;> rfl

/-- The count over eras of 400 years from 1 March is the calendar's. -/
theorem daysToMonth_eq {year month : Int} (h0 : 0 ≤ month) (h11 : month ≤ 11) :
    daysToMonth year month = monthStart year (month + 1) := by
  rw [daysToMonth, monthStart, daysBeforeMonth_eq (by omega) (by omega)]
  simp only [tdiv_moved_down (show (0 : Int) < 400 by decide) (show (399 : Int) = 400 - 1 by decide)]
  rw [Int.tdiv_eq_ediv_of_nonneg (by omega), Int.tdiv_eq_ediv_of_nonneg (by omega),
    Int.tdiv_eq_ediv_of_nonneg (by split <;> omega)]
  by_cases hearly : month < 2
  · -- January and February are the last months of the year before
    have hyears := eraDays_eq (year - 1)
    rw [Int.sub_add_cancel] at hyears
    have hmonth : (153 * (month + 10) + 2) / 5 - 306 = (367 * (month + 1) - 362) / 12 := by omega
    simp only [if_pos hearly, if_pos (show month + 1 ≤ 2 by omega)]
    generalize (153 * (month + 10) + 2) / 5 = fromMarch at hmonth ⊢
    omega
  · have hyears := eraDays_eq year
    rw [yearStart_succ, daysInYear] at hyears
    have hmonth := daysFromMarch_eq (show 0 ≤ month - 2 by omega) (by omega)
    rw [show month - 2 + 3 = month + 1 by omega] at hmonth
    simp only [if_neg hearly, if_neg (show ¬ month + 1 ≤ 2 by omega)]
    generalize (153 * (month - 2) + 2) / 5 = fromMarch at hmonth ⊢
    by_cases hleap : IsLeap year
    · rw [if_pos hleap] at hyears ⊢
      omega
    · rw [if_neg hleap] at hyears ⊢
      omega

/-- **`UtcCivilSeconds` over the calendar**: the month is carried into the
year, every other field is counted on. -/
theorem utcCivilSeconds_eq (tmVal : Tm) :
    utcCivilSeconds tmVal =
      (monthStart (1900 + tmVal.tmYear + tmVal.tmMon / 12) (tmVal.tmMon % 12 + 1) +
        (tmVal.tmMday - 1)) * 86400 + tmVal.tmHour * 3600 + tmVal.tmMin * 60 + tmVal.tmSec := by
  simp only [utcCivilSeconds, civilMonth_eq]
  rw [daysToMonth_eq (by omega) (by omega)]

/-- The year of an era of 400 years from a day of it: `c` hundredths, `q`
fourths and `a` single years lie before the day's. -/
theorem yearOfEra_eq {c q a dayOfYear dayOfEra : Int} (hc : 0 ≤ c ∧ c ≤ 3) (hq : 0 ≤ q ∧ q ≤ 24)
    (ha : 0 ≤ a ∧ a ≤ 3) (hday : 0 ≤ dayOfYear ∧ dayOfYear ≤ 365)
    (hleap : dayOfYear = 365 → a = 3 ∧ (q ≠ 24 ∨ c = 3))
    (hera : dayOfEra = 36524 * c + 1461 * q + 365 * a + dayOfYear) :
    (dayOfEra - dayOfEra / 1460 + dayOfEra / 36524 - dayOfEra / 146096) / 365 =
      100 * c + 4 * q + a := by
  have hfourths : dayOfEra / 1460 = 25 * c + q + (24 * c + q + 365 * a + dayOfYear) / 1460 := by
    omega
  have hhundredths : dayOfEra / 36524 - dayOfEra / 146096 = c := by
    -- the last day of the era is the only one past its hundredth
    have hlast : 1461 * q + 365 * a + dayOfYear ≤ 36523 ∨
        (c = 3 ∧ 1461 * q + 365 * a + dayOfYear = 36524) := by omega
    rcases hlast with hlast | ⟨rfl, hlast⟩
    · have hc' : dayOfEra / 36524 = c := by omega
      have hzero : dayOfEra / 146096 = 0 := by omega
      omega
    · omega
  have hrest : (24 * c + q + 365 * a + dayOfYear) / 1460 = 0 ∨
      (24 * c + q + 365 * a + dayOfYear) / 1460 = 1 := by omega
  rcases hrest with hrest | hrest <;> omega

/-- The day of a date in its year from 1 March: `m` months lie before its own,
and only the last month has a 29th that is the year's last. -/
theorem exists_march (d : Date) : ∃ y m : Int, 0 ≤ m ∧ m ≤ 11 ∧
    d.month = (if m < 10 then m + 3 else m - 9) ∧
    d.year = y + (if d.month ≤ 2 then 1 else 0) ∧
    d.day ≤ (153 * (m + 1) + 2) / 5 - (153 * m + 2) / 5 ∧
    (m = 11 → d.day ≤ 28 ∨ (d.day = 29 ∧ IsLeap (y + 1))) ∧
    d.dayNumber + 719468 =
      y / 400 * 146097 + (y % 400 * 365 + y % 400 / 4 - y % 400 / 100 +
        ((153 * m + 2) / 5 + (d.day - 1))) := by
  obtain ⟨h1, h12, hpos, hle⟩ := d.isDate
  have hmod : ∀ y : Int, y - y / 400 * 400 = y % 400 := fun y => by omega
  have hdays : d.dayNumber = daysToMonth d.year (d.month - 1) + (d.day - 1) := by
    rw [daysToMonth_eq (by omega) (by omega), Int.sub_add_cancel, Date.dayNumber]
  simp only [daysToMonth,
    tdiv_moved_down (show (0 : Int) < 400 by decide) (show (399 : Int) = 400 - 1 by decide)] at hdays
  rw [Int.tdiv_eq_ediv_of_nonneg (by omega), Int.tdiv_eq_ediv_of_nonneg (by omega),
    Int.tdiv_eq_ediv_of_nonneg (by split <;> omega)] at hdays
  simp only [daysInMonth] at hle
  by_cases hearly : d.month ≤ 2
  · have hlt : d.month - 1 < 2 := by omega
    simp only [hlt, if_true, hmod] at hdays
    refine ⟨d.year - 1, d.month + 9, by omega, by omega, ?_, ?_, ?_, ?_, ?_⟩
    · rw [if_neg (by omega)]
      omega
    · rw [if_pos hearly]
      omega
    · split at hle
      · split at hle <;> omega
      · omega
    · intro hfebruary
      rw [if_pos (by omega)] at hle
      rw [Int.sub_add_cancel]
      split at hle
      · next hleap => exact if h : d.day ≤ 28 then .inl h else .inr ⟨by omega, hleap⟩
      · exact .inl hle
    · omega
  · have hlt : ¬ d.month - 1 < 2 := by omega
    have hthree : d.month - 1 - 2 = d.month - 3 := by omega
    simp only [hlt, if_false, hthree, hmod] at hdays
    refine ⟨d.year, d.month - 3, by omega, by omega, ?_, ?_, ?_, by omega, ?_⟩
    · rw [if_pos (by omega)]
      omega
    · rw [if_neg hearly]
      omega
    · rw [if_neg (by omega)] at hle
      have hmonth : d.month = 3 ∨ d.month = 4 ∨ d.month = 5 ∨ d.month = 6 ∨ d.month = 7 ∨
          d.month = 8 ∨ d.month = 9 ∨ d.month = 10 ∨ d.month = 11 ∨ d.month = 12 := by omega
      rcases hmonth with h | h | h | h | h | h | h | h | h | h <;> rw [h] at hle ⊢ <;> omega
    · omega

/-- A month and a day from a day of the year from 1 March. -/
theorem monthFromMarch_eq {m day : Int} (h0 : 0 ≤ m) (h11 : m ≤ 11) (hpos : 1 ≤ day)
    (hle : day ≤ (153 * (m + 1) + 2) / 5 - (153 * m + 2) / 5) :
    (5 * ((153 * m + 2) / 5 + (day - 1)) + 2) / 153 = m := by
  have hmonth : m = 0 ∨ m = 1 ∨ m = 2 ∨ m = 3 ∨ m = 4 ∨ m = 5 ∨ m = 6 ∨ m = 7 ∨ m = 8 ∨ m = 9 ∨
      m = 10 ∨ m = 11 := by omega
  rcases hmonth with rfl | rfl | rfl | rfl | rfl | rfl | rfl | rfl | rfl | rfl | rfl | rfl <;> omega

/-- A day of an era is read back as its year and its day of the year. -/
theorem yearOfEra_of_dayOfEra {yearOfEra dayOfYear dayOfEra : Int}
    (hyear : 0 ≤ yearOfEra ∧ yearOfEra < 400) (hday : 0 ≤ dayOfYear ∧ dayOfYear ≤ 365)
    (hleap : dayOfYear = 365 → yearOfEra % 4 = 3 ∧ (yearOfEra % 100 ≠ 99 ∨ yearOfEra = 399))
    (hera : dayOfEra = yearOfEra * 365 + yearOfEra / 4 - yearOfEra / 100 + dayOfYear) :
    (0 ≤ dayOfEra ∧ dayOfEra < 146097) ∧
      (dayOfEra - dayOfEra / 1460 + dayOfEra / 36524 - dayOfEra / 146096) / 365 = yearOfEra := by
  obtain ⟨c, q, a, hc, hq, ha, hyoe⟩ : ∃ c q a : Int, (0 ≤ c ∧ c ≤ 3) ∧ (0 ≤ q ∧ q ≤ 24) ∧
      (0 ≤ a ∧ a ≤ 3) ∧ yearOfEra = 100 * c + 4 * q + a :=
    ⟨yearOfEra / 100, yearOfEra % 100 / 4, yearOfEra % 4, by omega, by omega, by omega, by omega⟩
  have hfourths : yearOfEra / 4 = 25 * c + q := by omega
  have hhundredths : yearOfEra / 100 = c := by omega
  have hsum : dayOfEra = 36524 * c + 1461 * q + 365 * a + dayOfYear := by omega
  rw [yearOfEra_eq hc hq ha hday (fun h => by have := hleap h; omega) hsum, hyoe]
  exact ⟨by omega, rfl⟩

/-- The days of a date are read back as the date. -/
theorem civilFromDays_dayNumber (d : Date) : civilFromDays d.dayNumber = (d.year, d.month, d.day) := by
  obtain ⟨y, m, h0, h11, hmonth, hyear, hday, hfebruary, hnumber⟩ := exists_march d
  have hpos := d.isDate.2.2.1
  have hmarch := monthFromMarch_eq h0 h11 hpos hday
  have hbounds : 0 ≤ (153 * m + 2) / 5 + (d.day - 1) ∧ (153 * m + 2) / 5 + (d.day - 1) ≤ 365 := by
    omega
  have hleap : (153 * m + 2) / 5 + (d.day - 1) = 365 →
      y % 400 % 4 = 3 ∧ (y % 400 % 100 ≠ 99 ∨ y % 400 = 399) := by
    intro hlast
    obtain rfl : m = 11 := by omega
    rcases hfebruary rfl with h28 | ⟨-, hleap⟩
    · omega
    · simp only [IsLeap] at hleap
      clear hfebruary hnumber hyear hmonth
      omega
  generalize hdayOfEra : y % 400 * 365 + y % 400 / 4 - y % 400 / 100 +
    ((153 * m + 2) / 5 + (d.day - 1)) = dayOfEra at hnumber
  obtain ⟨hrange, hyearOfEra⟩ := yearOfEra_of_dayOfEra (by omega) hbounds hleap hdayOfEra.symm
  clear hleap hfebruary
  have hera : (y / 400 * 146097 + dayOfEra) / 146097 = y / 400 := by
    rw [Int.add_comm, Int.add_mul_ediv_right _ _ (by decide), Int.ediv_eq_zero_of_lt hrange.1 hrange.2,
      Int.zero_add]
  have hsub : y / 400 * 146097 + dayOfEra - y / 400 * 146097 = dayOfEra := by omega
  have hrest : dayOfEra - (365 * (y % 400) + y % 400 / 4 - y % 400 / 100) =
      (153 * m + 2) / 5 + (d.day - 1) := by
    rw [← hdayOfEra]
    omega
  have hnonneg : ∀ {a b : Int}, 0 ≤ a → a.tdiv b = a / b := Int.tdiv_eq_ediv_of_nonneg
  have hyear0 : 0 ≤ y % 400 := Int.emod_nonneg y (by decide)
  simp only [civilFromDays, hnumber, tdiv_moved_down (show (0 : Int) < 146097 by decide)
    (show (146096 : Int) = 146097 - 1 by decide), hera, hsub, hnonneg hrange.1]
  rw [hnonneg (by omega), hyearOfEra, hnonneg hyear0, hnonneg hyear0, hrest,
    hnonneg (by omega), hmarch, hnonneg (by omega), ← hmonth]
  refine Prod.ext ?_ (Prod.ext rfl ?_)
  · simp only [hyear]
    omega
  · simp only
    omega

/-! ## the fields of a date -/

/-- The fields of a second of a date. -/
def civilFields (d : Date) (secondOfDay : Int) : Tm where
  tmYear := d.year - 1900
  tmMon := d.month - 1
  tmMday := d.day
  tmHour := secondOfDay / 3600
  tmMin := secondOfDay / 60 % 60
  tmSec := secondOfDay % 60
  tmWday := Gregorian.weekday d.dayNumber
  tmYday := d.dayOfYear

/-- **`UtcCivilFromSeconds` over the calendar**. -/
theorem utcCivilFromSeconds_dayNumber (d : Date) {s : Int} (h0 : 0 ≤ s) (h1 : s < 86400) :
    utcCivilFromSeconds (d.dayNumber * 86400 + s) =
      if intLowest ≤ d.year - 1900 ∧ d.year - 1900 ≤ intMax then some (civilFields d s) else none := by
  have hcorrected := tmod_corrected (a := d.dayNumber * 86400 + s) (m := 86400) (by decide)
  have hdays : (d.dayNumber * 86400 + s) / 86400 = d.dayNumber := by omega
  have hsecond : (d.dayNumber * 86400 + s) % 86400 = s := by omega
  have hnonneg : ∀ {a b : Int}, 0 ≤ a → a.tdiv b = a / b := Int.tdiv_eq_ediv_of_nonneg
  have hnonneg' : ∀ {a b : Int}, 0 ≤ a → a.tmod b = a % b := Int.tmod_eq_emod_of_nonneg
  have hweek := tmod_bounds (a := d.dayNumber) (m := 7) (by decide)
  have hweekday : (d.dayNumber.tmod 7 + 11).tmod 7 = Gregorian.weekday d.dayNumber := by
    have hdef := Int.tmod_def d.dayNumber 7
    rw [hnonneg' (by omega), Gregorian.weekday]
    omega
  have hjanuary : utcCivilSeconds { tmYear := d.year - 1900, tmMday := 1 } =
      86400 * yearStart d.year := by
    have hyear : 1900 + (d.year - 1900) + 0 / 12 = d.year := by omega
    rw [utcCivilSeconds_eq, monthStart, hyear]
    simp only [daysBeforeMonth_january, Int.zero_emod, Int.zero_add]
    omega
  have hyday : d.dayNumber - yearStart d.year = d.dayOfYear := by
    rw [d.dayNumber_eq]
    omega
  simp only [utcCivilFromSeconds, hcorrected, hdays, hsecond, civilFromDays_dayNumber, hjanuary,
    Int.mul_tdiv_cancel_left _ (show (86400 : Int) ≠ 0 by decide), hyday, hweekday]
  rw [hnonneg h0, hnonneg h0, hnonneg' (by omega), hnonneg' h0]
  by_cases hyear : intLowest ≤ d.year - 1900 ∧ d.year - 1900 ≤ intMax
  · rw [if_neg (by omega), if_pos hyear]
    rfl
  · rw [if_pos (by omega), if_neg hyear]

/-- The seconds of the fields of a date. -/
theorem utcCivilSeconds_civilFields (d : Date) (s : Int) :
    utcCivilSeconds (civilFields d s) = d.dayNumber * 86400 + s := by
  have hmonth := d.isDate
  have hyear : 1900 + (d.year - 1900) + (d.month - 1) / 12 = d.year := by
    have := hmonth.1
    have := hmonth.2.1
    omega
  have hmod : (d.month - 1) % 12 + 1 = d.month := by
    have := hmonth.1
    have := hmonth.2.1
    omega
  rw [utcCivilSeconds_eq]
  simp only [civilFields, hyear, hmod, Date.dayNumber]
  omega

end DispatcharrPvr
