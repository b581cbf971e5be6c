/-!
# Lib.Gregorian

The proleptic Gregorian calendar.  A date is a year, a month and a day that the
month has in that year; dates are counted in days from 1 January 1970, one more
for each next date (`dayNumber_next`), and every number is the number of a date
(`exists_dayNumber`).

The months of a year are its only irregular part: `daysBeforeMonth_eq` gives
their closed form, and with it every fact about a date is linear arithmetic.

This module depends only on the Lean 4 core library.
-/

namespace Gregorian

/-! ## years and months -/

/-- Every fourth year, of the hundredth ones every fourth. -/
def IsLeap (year : Int) : Prop := (year % 4 = 0 ∧ year % 100 ≠ 0) ∨ year % 400 = 0

instance (year : Int) : Decidable (IsLeap year) := inferInstanceAs (Decidable (_ ∨ _))

def daysInYear (year : Int) : Int := if IsLeap year then 366 else 365

/-- The months are numbered from 1. -/
def daysInMonth (year month : Int) : Int :=
  if month = 2 then if IsLeap year then 29 else 28
  else if month = 4 ∨ month = 6 ∨ month = 9 ∨ month = 11 then 30
  else 31

/-- The days of the first months of a year. -/
def daysInMonths (year : Int) : Nat → Int
  | 0 => 0
  | month + 1 => daysInMonths year month + daysInMonth year (month + 1)

/-- The days of a year before one of its months. -/
def daysBeforeMonth (year month : Int) : Int := daysInMonths year (month - 1).toNat

/-- The number of the first day of a year. -/
def yearStart (year : Int) : Int :=
  365 * (year - 1970) + (year - 1) / 4 - (year - 1) / 100 + (year - 1) / 400 - 477

/-- A year begins where the one before it ends. -/
theorem yearStart_succ (year : Int) : yearStart (year + 1) = yearStart year + daysInYear year := by
  simp only [yearStart, daysInYear]
  split
  · next hleap => simp only [IsLeap] at hleap; omega
  · next hleap => simp only [IsLeap] at hleap; omega

theorem yearStart_le {year year' : Int} (h : year ≤ year') : yearStart year ≤ yearStart year' := by
  simp only [yearStart]
  omega

theorem daysInYear_bounds (year : Int) : 365 ≤ daysInYear year ∧ daysInYear year ≤ 366 := by
  simp only [daysInYear]
  split <;> omega

theorem daysInMonth_bounds (year month : Int) :
    28 ≤ daysInMonth year month ∧ daysInMonth year month ≤ 31 := by
  simp only [daysInMonth]
  split
  · split <;> omega
  · split <;> omega

/-- The months of a year in closed form. -/
theorem daysBeforeMonth_eq {year month : Int} (h1 : 1 ≤ month) (h12 : month ≤ 12) :
    daysBeforeMonth year month =
      (367 * month - 362) / 12 - (if month ≤ 2 then 0 else if IsLeap year then 1 else 2) := by
  have hmonth : month = 1 ∨ month = 2 ∨ month = 3 ∨ month = 4 ∨ month = 5 ∨ month = 6 ∨ month = 7 ∨
      month = 8 ∨ month = 9 ∨ month = 10 ∨ month = 11 ∨ month = 12 := by omega
  rcases hmonth with rfl | rfl | rfl | rfl | rfl | rfl | rfl | rfl | rfl | rfl | rfl | rfl <;>
    by_cases hleap : IsLeap year <;> simp [daysBeforeMonth, daysInMonths, daysInMonth, hleap]

theorem daysBeforeMonth_succ (year : Int) {month : Int} (h1 : 1 ≤ month) :
    daysBeforeMonth year (month + 1) = daysBeforeMonth year month + daysInMonth year month := by
  have hnat : (month + 1 - 1).toNat = (month - 1).toNat + 1 := by omega
  have hmonth : ((month - 1).toNat : Int) + 1 = month := by omega
  rw [daysBeforeMonth, hnat, daysInMonths, hmonth, daysBeforeMonth]

theorem daysBeforeMonth_january (year : Int) : daysBeforeMonth year 1 = 0 := rfl

/-- The twelve months make the year. -/
theorem daysBeforeMonth_december (year : Int) :
    daysBeforeMonth year 12 + 31 = daysInYear year := by
  rw [daysBeforeMonth_eq (by decide) (by decide), daysInYear]
  by_cases hleap : IsLeap year <;> simp [hleap]

/-! ## dates -/

/-- The day is one that the month has in that year. -/
def IsDate (year month day : Int) : Prop :=
  1 ≤ month ∧ month ≤ 12 ∧ 1 ≤ day ∧ day ≤ daysInMonth year month

instance (year month day : Int) : Decidable (IsDate year month day) :=
  inferInstanceAs (Decidable (_ ∧ _))

@[ext]
structure Date where
  year : Int
  month : Int
  day : Int
  isDate : IsDate year month day
deriving DecidableEq

/-- The number of the day before the first of a month. -/
def monthStart (year month : Int) : Int := yearStart year + daysBeforeMonth year month

namespace Date

/-- The days since 1 January 1970. -/
def dayNumber (d : Date) : Int := monthStart d.year d.month + (d.day - 1)

/-- The days since 1 January of its year. -/
def dayOfYear (d : Date) : Int := daysBeforeMonth d.year d.month + (d.day - 1)

def epoch : Date := ⟨1970, 1, 1, by decide⟩

/-- The date after a date. -/
def next (d : Date) : Date :=
  if hday : d.day < daysInMonth d.year d.month then
    ⟨d.year, d.month, d.day + 1, by
      obtain ⟨h1, h12, hpos, -⟩ := d.isDate
      exact ⟨h1, h12, by omega, by omega⟩⟩
  else if hmonth : d.month < 12 then
    ⟨d.year, d.month + 1, 1, by
      have := d.isDate.1
      have := daysInMonth_bounds d.year (d.month + 1)
      exact ⟨by omega, by omega, by decide, by omega⟩⟩
  else ⟨d.year + 1, 1, 1, by
    have := daysInMonth_bounds (d.year + 1) 1
    exact ⟨by decide, by decide, by decide, by omega⟩⟩

/-- The date before a date. -/
def prev (d : Date) : Date :=
  if hday : 1 < d.day then
    ⟨d.year, d.month, d.day - 1, by
      obtain ⟨h1, h12, -, hle⟩ := d.isDate
      exact ⟨h1, h12, by omega, by omega⟩⟩
  else if hmonth : 1 < d.month then
    ⟨d.year, d.month - 1, daysInMonth d.year (d.month - 1), by
      have := d.isDate.2.1
      have := daysInMonth_bounds d.year (d.month - 1)
      exact ⟨by omega, by omega, by omega, by omega⟩⟩
  else ⟨d.year - 1, 12, 31, by
    have : daysInMonth (d.year - 1) 12 = 31 := rfl
    exact ⟨by decide, by decide, by decide, by omega⟩⟩

theorem dayNumber_epoch : epoch.dayNumber = 0 := by decide

theorem dayNumber_eq (d : Date) : d.dayNumber = yearStart d.year + d.dayOfYear := by
  simp only [dayNumber, monthStart, dayOfYear]
  omega

/-- The next date is one day later. -/
theorem dayNumber_next (d : Date) : d.next.dayNumber = d.dayNumber + 1 := by
  obtain ⟨h1, h12, -, hle⟩ := d.isDate
  rw [next]
  split
  · simp only [dayNumber]
    omega
  · split
    · have hsucc := daysBeforeMonth_succ d.year h1
      simp only [dayNumber, monthStart]
      omega
    · have hdecember : d.month = 12 := by omega
      have h31 : daysInMonth d.year d.month = 31 := by rw [hdecember]; rfl
      have hyear := yearStart_succ d.year
      have hmonths := daysBeforeMonth_december d.year
      simp only [dayNumber, monthStart, daysBeforeMonth_january, hdecember]
      omega

/-- The date before is one day earlier. -/
theorem dayNumber_prev (d : Date) : d.prev.dayNumber = d.dayNumber - 1 := by
  obtain ⟨h1, h12, hpos, -⟩ := d.isDate
  rw [prev]
  split
  · simp only [dayNumber]
    omega
  · split
    · have hsucc := daysBeforeMonth_succ d.year (show 1 ≤ d.month - 1 by omega)
      rw [Int.sub_add_cancel] at hsucc
      simp only [dayNumber, monthStart]
      omega
    · have hjanuary : d.month = 1 := by omega
      have hyear := yearStart_succ (d.year - 1)
      have hmonths := daysBeforeMonth_december (d.year - 1)
      rw [Int.sub_add_cancel] at hyear
      simp only [dayNumber, monthStart, daysBeforeMonth_january, hjanuary]
      omega

/-- Every number is the number of a date. -/
theorem exists_dayNumber (n : Int) : ∃ d : Date, d.dayNumber = n := by
  have hforward : ∀ k : Nat, ∃ d : Date, d.dayNumber = k := by
    intro k
    induction k with
    | zero => exact ⟨epoch, dayNumber_epoch⟩
    | succ k ih =>
        obtain ⟨d, hd⟩ := ih
        exact ⟨d.next, by rw [dayNumber_next, hd]; rfl⟩
  have hbackward : ∀ k : Nat, ∃ d : Date, d.dayNumber = -(k : Int) := by
    intro k
    induction k with
    | zero => exact ⟨epoch, dayNumber_epoch⟩
    | succ k ih =>
        obtain ⟨d, hd⟩ := ih
        exact ⟨d.prev, by rw [dayNumber_prev, hd]; omega⟩
  cases n with
  | ofNat k => exact hforward k
  | negSucc k => exact hbackward (k + 1)

theorem dayOfYear_bounds (d : Date) : 0 ≤ d.dayOfYear ∧ d.dayOfYear < daysInYear d.year := by
  obtain ⟨h1, h12, hpos, hle⟩ := d.isDate
  rw [dayOfYear, daysBeforeMonth_eq h1 h12, daysInYear]
  simp only [daysInMonth] at hle
  by_cases hleap : IsLeap d.year <;> simp only [hleap, if_true, if_false] at hle ⊢ <;> omega

/-- A date is in a year or later exactly when it is not before its first day. -/
theorem le_year_iff (d : Date) (year : Int) : year ≤ d.year ↔ yearStart year ≤ d.dayNumber := by
  have hbounds := d.dayOfYear_bounds
  have hyear := yearStart_succ d.year
  rw [dayNumber_eq]
  constructor
  · intro h
    have hle := yearStart_le h
    omega
  · intro h
    refine Int.not_lt.mp fun hlt => ?_
    have hle := yearStart_le (show d.year + 1 ≤ year by omega)
    omega

end Date

/-! ## weekdays -/

/-- The weekday of a day, 0 for Sunday; 1 January 1970 is a Thursday. -/
def weekday (dayNumber : Int) : Int := (dayNumber + 4) % 7

/-- The days of a month that fall on a weekday, in order. -/
def daysOnWeekday (year month day : Int) : List Int :=
  ((List.range (daysInMonth year month).toNat).filter fun (i : Nat) =>
    decide (weekday (monthStart year month + i) = day)).map fun (i : Nat) => (i : Int) + 1

/-- The days of a month that lie a whole number of weeks after its first week's
`k`-th. -/
theorem filter_weekday {k days : Nat} (hk : k < 7) (hlow : 28 ≤ days) (hhigh : days ≤ 31) :
    (List.range days).filter (fun i => decide (i % 7 = k)) =
      (List.range ((days - k + 6) / 7)).map fun week => k + 7 * week := by
  have hall : ∀ k : Fin 7, ∀ extra : Fin 4,
      (List.range (28 + extra.val)).filter (fun i => decide (i % 7 = k.val)) =
        (List.range ((28 + extra.val - k.val + 6) / 7)).map fun week => k.val + 7 * week := by decide
  have h := hall ⟨k, hk⟩ ⟨days - 28, by omega⟩
  have hdays : 28 + (days - 28) = days := by omega
  simpa only [hdays] using h

/-- **The days of a month on a weekday**: the first of them, and one each week. -/
theorem daysOnWeekday_eq (year month : Int) {day : Int} (hday : 0 ≤ day ∧ day ≤ 6) :
    ∃ first weeks : Nat, (first : Int) = (day - weekday (monthStart year month)) % 7 ∧
      first + 7 * weeks ≤ (daysInMonth year month).toNat + 6 ∧
      (daysInMonth year month).toNat ≤ first + 7 * weeks ∧ 4 ≤ weeks ∧
      daysOnWeekday year month day =
        (List.range weeks).map fun (week : Nat) => (first : Int) + 7 * week + 1 := by
  have hdays := daysInMonth_bounds year month
  obtain ⟨first, hfirst⟩ : ∃ first : Nat,
      (first : Int) = (day - weekday (monthStart year month)) % 7 :=
    ⟨((day - weekday (monthStart year month)) % 7).toNat, by omega⟩
  refine ⟨first, ((daysInMonth year month).toNat - first + 6) / 7, hfirst, by omega, by omega,
    by omega, ?_⟩
  have hfilter : (List.range (daysInMonth year month).toNat).filter (fun (i : Nat) =>
      decide (weekday (monthStart year month + i) = day)) =
        (List.range (daysInMonth year month).toNat).filter fun i => decide (i % 7 = first) := by
    refine List.filter_congr fun i _ => ?_
    rw [decide_eq_decide]
    simp only [weekday] at hfirst ⊢
    omega
  rw [daysOnWeekday, hfilter, filter_weekday (by omega) (by omega) (by omega), List.map_map]
  refine List.map_congr_left fun week _ => ?_
  simp only [Function.comp]
  omega

/-- Every weekday comes four times a month at least. -/
theorem four_le_length_daysOnWeekday {year month day : Int} (hday : 0 ≤ day ∧ day ≤ 6) :
    4 ≤ (daysOnWeekday year month day).length := by
  obtain ⟨first, weeks, -, -, -, hfour, hlist⟩ := daysOnWeekday_eq year month hday
  rw [hlist, List.length_map, List.length_range]
  exact hfour

theorem mem_daysOnWeekday_bounds {year month weekday day : Int}
    (h : day ∈ daysOnWeekday year month weekday) : 1 ≤ day ∧ day ≤ daysInMonth year month := by
  have hdays := daysInMonth_bounds year month
  obtain ⟨i, hi, rfl⟩ := List.mem_map.mp h
  have hlt := List.mem_range.mp (List.mem_filter.mp hi).1
  omega

end Gregorian
