import DispatcharrPvr.TimeUtil
import Mathlib.Logic.Function.Iterate

/-!
# TimeUtil.Bijection

Civil time as a bijection: `UtcCivilFromSeconds` gives fields that name a real
date and time of day, with the right weekday and day of the year, and
`UtcCivilSeconds` undoes it; it is defined from the first second of the first
year that an `int` can name to the last of the last.  A month out of range is
carried into the year as many single steps to the next or the previous month
would carry it.
-/

namespace DispatcharrPvr

open Gregorian

/-! ## fields in range -/

namespace Tm

/-- The date that the fields name. -/
def NamesDate (tmVal : Tm) : Prop :=
  IsDate (1900 + tmVal.tmYear) (tmVal.tmMon + 1) tmVal.tmMday

/-- The second of the day that the fields name. -/
def secondOfDay (tmVal : Tm) : Int := tmVal.tmHour * 3600 + tmVal.tmMin * 60 + tmVal.tmSec

/-- Every field is in its range. -/
structure InRange (tmVal : Tm) : Prop where
  year : intLowest ≤ tmVal.tmYear ∧ tmVal.tmYear ≤ intMax
  date : tmVal.NamesDate
  hour : 0 ≤ tmVal.tmHour ∧ tmVal.tmHour ≤ 23
  min : 0 ≤ tmVal.tmMin ∧ tmVal.tmMin ≤ 59
  sec : 0 ≤ tmVal.tmSec ∧ tmVal.tmSec ≤ 59

/-- The day of the year that the fields name. -/
def dayOfYear (tmVal : Tm) : Int :=
  daysBeforeMonth (1900 + tmVal.tmYear) (tmVal.tmMon + 1) + (tmVal.tmMday - 1)

end Tm

/-- The fields name this date. -/
structure Tm.Names (tmVal : Tm) (d : Date) : Prop where
  year : d.year = 1900 + tmVal.tmYear
  month : d.month = tmVal.tmMon + 1
  day : d.day = tmVal.tmMday

theorem Tm.Names.namesDate {tmVal : Tm} {d : Date} (h : tmVal.Names d) : tmVal.NamesDate := by
  rw [NamesDate, ← h.year, ← h.month, ← h.day]
  exact d.isDate

theorem Tm.names_civilFields (d : Date) (s : Int) : (civilFields d s).Names d where
  year := by
    simp only [civilFields]
    omega
  month := by simp only [civilFields, Int.sub_add_cancel]
  day := rfl

/-- The seconds of fields that name a date. -/
theorem Tm.Names.utcCivilSeconds_eq {tmVal : Tm} {d : Date} (h : tmVal.Names d) :
    utcCivilSeconds tmVal = d.dayNumber * 86400 + tmVal.secondOfDay := by
  have hmonth := h.month
  have := d.isDate.1
  have := d.isDate.2.1
  have hcarry : 1900 + tmVal.tmYear + tmVal.tmMon / 12 = d.year := by
    rw [h.year]
    omega
  have hmod : tmVal.tmMon % 12 + 1 = d.month := by omega
  rw [DispatcharrPvr.utcCivilSeconds_eq, hcarry, hmod, ← h.day, Date.dayNumber, Tm.secondOfDay]
  omega

/-- Fields in range are the fields of their date. -/
theorem exists_civilFields {tmVal : Tm} (h : tmVal.InRange) :
    ∃ d : Date, ∃ s : Int, (0 ≤ s ∧ s < 86400) ∧
      (intLowest ≤ d.year - 1900 ∧ d.year - 1900 ≤ intMax) ∧
      utcCivilSeconds tmVal = d.dayNumber * 86400 + s ∧
      civilFields d s = { tmVal with
        tmWday := Gregorian.weekday (utcCivilSeconds tmVal / 86400)
        tmYday := tmVal.dayOfYear
        tmIsdst := 0 } := by
  obtain ⟨hyear, hdate, hhour, hmin, hsec⟩ := h
  have hmonth : 0 ≤ tmVal.tmMon ∧ tmVal.tmMon ≤ 11 := by
    have := hdate.1
    have := hdate.2.1
    omega
  have hcarry : 1900 + tmVal.tmYear + tmVal.tmMon / 12 = 1900 + tmVal.tmYear := by omega
  have hmod : tmVal.tmMon % 12 = tmVal.tmMon := by omega
  have hseconds : utcCivilSeconds tmVal =
      (⟨1900 + tmVal.tmYear, tmVal.tmMon + 1, tmVal.tmMday, hdate⟩ : Date).dayNumber * 86400 +
        tmVal.secondOfDay := by
    rw [utcCivilSeconds_eq, hcarry, hmod]
    simp only [Date.dayNumber, Tm.secondOfDay]
    omega
  refine ⟨⟨1900 + tmVal.tmYear, tmVal.tmMon + 1, tmVal.tmMday, hdate⟩, tmVal.secondOfDay, ?_, ?_,
    hseconds, ?_⟩
  · simp only [Tm.secondOfDay]
    omega
  · simp only
    omega
  · have hday : (⟨1900 + tmVal.tmYear, tmVal.tmMon + 1, tmVal.tmMday, hdate⟩ : Date).dayNumber =
        utcCivilSeconds tmVal / 86400 := by
      rw [hseconds, Tm.secondOfDay]
      omega
    rw [civilFields, hday]
    simp only [Tm.secondOfDay, Tm.mk.injEq, Date.dayOfYear, Tm.dayOfYear, and_true, true_and]
    omega

/-- The fields of a second of a date are in range. -/
theorem inRange_civilFields {d : Date} {s : Int} (h0 : 0 ≤ s) (h1 : s < 86400)
    (hyear : intLowest ≤ d.year - 1900 ∧ d.year - 1900 ≤ intMax) : (civilFields d s).InRange where
  year := hyear
  date := by
    have hadd : 1900 + (d.year - 1900) = d.year := by omega
    simp only [Tm.NamesDate, civilFields, hadd, Int.sub_add_cancel]
    exact d.isDate
  hour := by
    simp only [civilFields]
    omega
  min := by
    simp only [civilFields]
    omega
  sec := by
    simp only [civilFields]
    omega

/-! ## the supported years -/

/-- The first second of the first year. -/
def firstSupportedSecond : Int := utcCivilSeconds { tmYear := intLowest, tmMday := 1 }

/-- The last second of the last year. -/
def lastSupportedSecond : Int :=
  utcCivilSeconds
    { tmYear := intMax, tmMon := 11, tmMday := 31, tmHour := 23, tmMin := 59, tmSec := 59 }

/-- A second is a second of a date. -/
theorem exists_date_second (t : Int) :
    ∃ d : Date, ∃ s : Int, (0 ≤ s ∧ s < 86400) ∧ t = d.dayNumber * 86400 + s := by
  obtain ⟨d, hd⟩ := Date.exists_dayNumber (t / 86400)
  exact ⟨d, t % 86400, by omega, by omega⟩

theorem isSome_utcCivilFromSeconds_iff (t : Int) :
    (utcCivilFromSeconds t).isSome = true ↔ firstSupportedSecond ≤ t ∧ t ≤ lastSupportedSecond := by
  obtain ⟨d, s, hs, rfl⟩ := exists_date_second t
  have hfirst : firstSupportedSecond = yearStart (intLowest + 1900) * 86400 := by decide
  have hlast : lastSupportedSecond = yearStart (intMax + 1901) * 86400 - 1 := by decide
  have hlow := d.le_year_iff (intLowest + 1900)
  have hhigh := d.le_year_iff (intMax + 1901)
  rw [utcCivilFromSeconds_dayNumber d hs.1 hs.2, hfirst, hlast]
  split
  · next hyear =>
      simp only [Option.isSome_some, true_iff]
      omega
  · next hyear =>
      simp only [Option.isSome_none, Bool.false_eq_true, false_iff]
      omega

/-! ## months out of range -/

namespace Tm

def nextMonth (tmVal : Tm) : Tm :=
  if tmVal.tmMon = 11 then { tmVal with tmYear := tmVal.tmYear + 1, tmMon := 0 }
  else { tmVal with tmMon := tmVal.tmMon + 1 }

def previousMonth (tmVal : Tm) : Tm :=
  if tmVal.tmMon = 0 then { tmVal with tmYear := tmVal.tmYear - 1, tmMon := 11 }
  else { tmVal with tmMon := tmVal.tmMon - 1 }

/-- So many steps of one month, back where their number is negative. -/
def stepMonths (tmVal : Tm) : Int → Tm
  | .ofNat n => nextMonth^[n] tmVal
  | .negSucc n => previousMonth^[n + 1] tmVal

/-- `g` names a month of the year, `n` months after the one of `f`; every other
field is the same. -/
structure MonthsLater (f : Tm) (n : Int) (g : Tm) : Prop where
  mon : 0 ≤ g.tmMon ∧ g.tmMon ≤ 11
  months : g.tmYear * 12 + g.tmMon = f.tmYear * 12 + f.tmMon + n
  rest : g = { f with tmYear := g.tmYear, tmMon := g.tmMon }

variable {f g : Tm} {n : Int}

theorem MonthsLater.nextMonth (h : MonthsLater f n g) : MonthsLater f (n + 1) g.nextMonth := by
  obtain ⟨hmon, hmonths, hrest⟩ := h
  rw [Tm.nextMonth]
  split
  · refine ⟨by simp, ?_, ?_⟩
    · simp only
      omega
    · rw [hrest]
  · refine ⟨?_, ?_, ?_⟩
    · simp only
      omega
    · simp only
      omega
    · rw [hrest]

theorem MonthsLater.previousMonth (h : MonthsLater f n g) :
    MonthsLater f (n - 1) g.previousMonth := by
  obtain ⟨hmon, hmonths, hrest⟩ := h
  rw [Tm.previousMonth]
  split
  · refine ⟨by simp, ?_, ?_⟩
    · simp only
      omega
    · rw [hrest]
  · refine ⟨?_, ?_, ?_⟩
    · simp only
      omega
    · simp only
      omega
    · rw [hrest]

theorem monthsLater_stepMonths (hmon : 0 ≤ f.tmMon ∧ f.tmMon ≤ 11) (n : Int) :
    MonthsLater f n (f.stepMonths n) := by
  have hself : MonthsLater f 0 f := ⟨hmon, by omega, rfl⟩
  cases n with
  | ofNat n =>
      show MonthsLater f n (Tm.nextMonth^[n] f)
      induction n with
      | zero => exact hself
      | succ n ih =>
          rw [Function.iterate_succ_apply']
          exact ih.nextMonth
  | negSucc n =>
      show MonthsLater f (.negSucc n) (Tm.previousMonth^[n + 1] f)
      induction n with
      | zero => exact hself.previousMonth
      | succ n ih =>
          rw [Function.iterate_succ_apply']
          exact ih.previousMonth

/-- A month out of range counts as the month it is carried to. -/
theorem MonthsLater.utcCivilSeconds_eq (h : MonthsLater f n g) :
    utcCivilSeconds { f with tmMon := f.tmMon + n } = utcCivilSeconds g := by
  obtain ⟨hmon, hmonths, hrest⟩ := h
  have hyear : 1900 + f.tmYear + (f.tmMon + n) / 12 = 1900 + g.tmYear + g.tmMon / 12 := by omega
  have hmonth : (f.tmMon + n) % 12 = g.tmMon % 12 := by omega
  rw [DispatcharrPvr.utcCivilSeconds_eq, DispatcharrPvr.utcCivilSeconds_eq]
  simp only [hyear, hmonth]
  rw [hrest]

end Tm

/-! ## the bijection -/

/-- **Civil time is a bijection**: between the seconds of the years an `int`
can name and the fields in range, with the weekday and the day of the year of
the date they name; months out of range are carried. -/
theorem civilTime_bijection :
    (∀ t : Int, (utcCivilFromSeconds t).isSome = true ↔
      firstSupportedSecond ≤ t ∧ t ≤ lastSupportedSecond) ∧
    (∀ (t : Int) (tmVal : Tm), utcCivilFromSeconds t = some tmVal →
      utcCivilSeconds tmVal = t ∧ tmVal.InRange ∧ tmVal.tmWday = Gregorian.weekday (t / 86400) ∧
        tmVal.tmYday = tmVal.dayOfYear ∧ tmVal.tmIsdst = 0) ∧
    (∀ tmVal : Tm, tmVal.InRange → utcCivilFromSeconds (utcCivilSeconds tmVal) =
      some { tmVal with
        tmWday := Gregorian.weekday (utcCivilSeconds tmVal / 86400)
        tmYday := tmVal.dayOfYear
        tmIsdst := 0 }) ∧
    ∀ (tmVal : Tm) (n : Int), 0 ≤ tmVal.tmMon ∧ tmVal.tmMon ≤ 11 →
      utcCivilSeconds { tmVal with tmMon := tmVal.tmMon + n } =
        utcCivilSeconds (tmVal.stepMonths n) := by
  refine ⟨isSome_utcCivilFromSeconds_iff, ?_, ?_, ?_⟩
  · intro t tmVal hfields
    obtain ⟨d, s, hs, rfl⟩ := exists_date_second t
    rw [utcCivilFromSeconds_dayNumber d hs.1 hs.2] at hfields
    split at hfields
    · next hyear =>
        obtain rfl := Option.some.inj hfields
        have hday : (d.dayNumber * 86400 + s) / 86400 = d.dayNumber := by omega
        have hadd : 1900 + (d.year - 1900) = d.year := by omega
        refine ⟨utcCivilSeconds_civilFields d s, inRange_civilFields hs.1 hs.2 hyear, ?_, ?_, rfl⟩
        · rw [hday]
          rfl
        · simp only [civilFields, Tm.dayOfYear, hadd, Int.sub_add_cancel, Date.dayOfYear]
    · contradiction
  · intro tmVal hrange
    obtain ⟨d, s, hs, hyear, hseconds, hfields⟩ := exists_civilFields hrange
    rw [hseconds, utcCivilFromSeconds_dayNumber d hs.1 hs.2, if_pos hyear, hfields, hseconds]
  · exact fun tmVal n hmon => (Tm.monthsLater_stepMonths hmon n).utcCivilSeconds_eq

/-- The last second before the epoch, and thirteen months before January. -/
theorem civilTime_before_epoch :
    utcCivilSeconds
        { tmYear := 69, tmMon := 11, tmMday := 31, tmHour := 23, tmMin := 59, tmSec := 59
          tmWday := 3, tmYday := 364 } = -1 ∧
      utcCivilSeconds { tmYear := 70, tmMon := 0 + -13, tmMday := 1 } =
        utcCivilSeconds (Tm.stepMonths { tmYear := 70, tmMday := 1 } (-13)) :=
  ⟨(civilTime_bijection.2.1 (-1) _ (by decide)).1,
    civilTime_bijection.2.2.2 { tmYear := 70, tmMday := 1 } (-13) (by decide)⟩

end DispatcharrPvr
