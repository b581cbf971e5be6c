import DispatcharrPvr.Lib.TruncDiv

/-!
# RecurringRuleUtil

The integer arithmetic between a recurring rule as Dispatcharr stores it (a
start date, two times of day, a weekday list, all in Dispatcharr's zone) and
as Kodi shows it (instants, a first day and a weekday bitmask in Kodi's zone):
`RecurringRuleUtil.cpp` and `RecurringRuleWeekdays.h`.

`time_t` and `int` are `Int` (the offsets of real zones stay far from the
bounds of either); the bitmask is the source's 32-bit word.  Kodi's zone and
Dispatcharr's are functions from an instant to an offset in minutes.

Two lemmas carry everything above this module: `weekday_rotate` reads a rotated
bitmask as the same set of weekdays moved along the week, and `dayShift_eq`
reads the shift as a difference of two local days.
-/

namespace DispatcharrPvr

open TruncDiv

def secondsPerDay : Int := 86400

/-! ## weekday bitmasks -/

/-- `ComputeRecurringRuleWeekdaysBitmask`; a day outside [0, 6] is skipped. -/
def computeRecurringRuleWeekdaysBitmask (daysOfWeek : List Int) : BitVec 32 :=
  daysOfWeek.foldl
    (fun weekdays (day : Int) =>
      if 0 ≤ day ∧ day ≤ 6 then weekdays ||| (1#32 <<< day.toNat) else weekdays) 0#32

/-- `RotateWeekdaysBitmask`. -/
def rotateWeekdaysBitmask (bitmask : BitVec 32) (days : Int) : BitVec 32 :=
  let week := bitmask &&& 0x7F#32
  let shift := ((days.tmod 7) + 7).tmod 7
  if shift = 0 then week
  else ((week <<< shift.toNat) ||| (week >>> (7 - shift.toNat))) &&& 0x7F#32

/-- The days 0 to 6 whose bit is set, in order. -/
def selectedDays (bitmask : BitVec 32) : List Int :=
  ((List.range 7).filter fun day => bitmask &&& (1#32 <<< day) ≠ 0#32).map Int.ofNat

/-- Whether a bitmask selects the weekday `x`, counted along the week from
Monday in either direction. -/
def weekday (bitmask : BitVec 32) (x : Int) : Bool := bitmask.getLsbD (x % 7).toNat

/-! ## between the two calendars -/

/-- `ComputeRecurringRuleDayShift`. -/
def computeRecurringRuleDayShift (utcSecondsOfDay kodiOffsetMinutes dispatcharrOffsetMinutes : Int) :
    Int :=
  let utc := floorMod utcSecondsOfDay secondsPerDay
  let kodiDay := floorDiv (utc + kodiOffsetMinutes * 60) secondsPerDay
  let dispatcharrDay := floorDiv (utc + dispatcharrOffsetMinutes * 60) secondsPerDay
  dispatcharrDay - kodiDay

/-- The outputs of `ComputeRecurringRuleFields`; `error` is written on failure
only. -/
structure ComputedRecurringRuleFields where
  ok : Bool
  daysOfWeek : List Int
  startSeconds : Int
  endSeconds : Int
  startDate : Int
  error : Option String
deriving DecidableEq, Repr

/-- `utcMidnight` of `ComputeRecurringRuleFields`. -/
def utcMidnight (t : Int) : Int := t - floorMod t secondsPerDay

/-- `ComputeRecurringRuleFields`: what the user sees, on the wire. -/
def computeRecurringRuleFields (startTime endTime firstDay : Int) (weekdaysBitmask : BitVec 32)
    (offsetMinutes : Int) (kodiOffsetMinutesAt : Int → Int) (nowUtc : Int) :
    ComputedRecurringRuleFields :=
  let offsetSeconds := offsetMinutes * 60
  let startUtcSeconds := floorMod startTime secondsPerDay
  let startSeconds := floorMod (startUtcSeconds + offsetSeconds) secondsPerDay
  -- the start's offset for the end too, on purpose: see the source's comment
  let endSeconds := floorMod (floorMod endTime secondsPerDay + offsetSeconds) secondsPerDay
  let dayShift :=
    computeRecurringRuleDayShift startUtcSeconds (kodiOffsetMinutesAt startTime) offsetMinutes
  let startDate :=
    if 0 < firstDay then
      utcMidnight (firstDay + kodiOffsetMinutesAt firstDay * 60) + dayShift * secondsPerDay
    else utcMidnight (nowUtc + offsetSeconds)
  let daysOfWeek := selectedDays (rotateWeekdaysBitmask weekdaysBitmask dayShift)
  if daysOfWeek.isEmpty then
    { ok := false, daysOfWeek, startSeconds, endSeconds, startDate,
      error := some "At least one day of the week must be selected" }
  else { ok := true, daysOfWeek, startSeconds, endSeconds, startDate, error := none }

/-- The loop that resolves the offset of a local time: ask for the offset at
the instant the current guess names, at most `tries` times. -/
def refineOffset (resolveOffsetMinutes : Int → Int) (localTime offsetMinutes : Int) : Nat → Int
  | 0 => offsetMinutes
  | tries + 1 =>
      let refined := resolveOffsetMinutes (localTime - offsetMinutes * 60)
      if refined = offsetMinutes then offsetMinutes
      else refineOffset resolveOffsetMinutes localTime refined tries

/-- The outputs of `ComputeRecurringRuleDisplayTimes`. -/
structure RecurringRuleDisplayTimes where
  startTime : Int
  endTime : Int
  firstDay : Int
  dayShift : Int
deriving DecidableEq, Repr

/-- The offset `ComputeRecurringRuleDisplayTimes` settles on for the start. -/
def displayStartOffset (startDate startTimeOfDaySeconds : Int)
    (resolveOffsetMinutes : Int → Int) : Int :=
  refineOffset resolveOffsetMinutes (startDate + startTimeOfDaySeconds)
    (resolveOffsetMinutes startDate) 2

/-- The end's local time; an end at or before the start is on the next day. -/
def displayEndLocal (startDate startTimeOfDaySeconds endTimeOfDaySeconds : Int) : Int :=
  let endLocal := startDate + endTimeOfDaySeconds
  if endTimeOfDaySeconds ≤ startTimeOfDaySeconds then endLocal + 86400 else endLocal

/-- The offset it settles on for the end, starting from the start's. -/
def displayEndOffset (startDate startTimeOfDaySeconds endTimeOfDaySeconds : Int)
    (resolveOffsetMinutes : Int → Int) : Int :=
  refineOffset resolveOffsetMinutes
    (displayEndLocal startDate startTimeOfDaySeconds endTimeOfDaySeconds)
    (displayStartOffset startDate startTimeOfDaySeconds resolveOffsetMinutes) 2

/-- `ComputeRecurringRuleDisplayTimes`: what is on the wire, as Kodi shows it. -/
def computeRecurringRuleDisplayTimes (startDate startTimeOfDaySeconds endTimeOfDaySeconds : Int)
    (resolveOffsetMinutes kodiOffsetMinutesAt : Int → Int) : RecurringRuleDisplayTimes :=
  let offsetMinutes := displayStartOffset startDate startTimeOfDaySeconds resolveOffsetMinutes
  let startTime := startDate + startTimeOfDaySeconds - offsetMinutes * 60
  let endOffsetMinutes :=
    displayEndOffset startDate startTimeOfDaySeconds endTimeOfDaySeconds resolveOffsetMinutes
  let endTime :=
    displayEndLocal startDate startTimeOfDaySeconds endTimeOfDaySeconds - endOffsetMinutes * 60
  let startUtcSeconds := floorMod startTime secondsPerDay
  let kodiStartOffsetMinutes := kodiOffsetMinutesAt startTime
  let dayShift := computeRecurringRuleDayShift startUtcSeconds kodiStartOffsetMinutes offsetMinutes
  -- noon, so that an offset that is wrong by less than half a day keeps the date
  let kodiLocalNoon := startDate - dayShift * secondsPerDay + 43200
  let kodiFirstDayOffsetMinutes := kodiOffsetMinutesAt (kodiLocalNoon - kodiStartOffsetMinutes * 60)
  { startTime, endTime, firstDay := kodiLocalNoon - kodiFirstDayOffsetMinutes * 60, dayShift }

/-- `TruncateRuleTimesToWholeMinutes`, as the pair it leaves. -/
def truncateRuleTimesToWholeMinutes (startSeconds endSeconds : Int) : Int × Int :=
  let start := startSeconds - floorMod startSeconds 60
  let stop := endSeconds - floorMod endSeconds 60
  if start = stop ∧ startSeconds ≠ endSeconds then (startSeconds, endSeconds) else (start, stop)

/-! ## reading a bitmask as a set of weekdays -/

theorem getLsbD_week (i : Nat) : (0x7F#32).getLsbD i = decide (i < 7) := by
  by_cases hi : i < 32
  · have hall : ∀ i : Fin 32, (0x7F#32).getLsbD i = decide (i.val < 7) := by decide
    exact hall ⟨i, hi⟩
  · have hlt : ¬ i < 7 := by omega
    rw [BitVec.getLsbD_of_ge _ _ (by omega)]
    simp [hlt]

theorem weekday_lt (x : Int) : (x % 7).toNat < 7 := by omega

/-- A weekday read from a shifted week comes from the bit `shift` below. -/
theorem getLsbD_rotate (bitmask : BitVec 32) {shift i : Nat} (hs : 0 < shift) (hs7 : shift < 7)
    (hi : i < 7) :
    ((((bitmask &&& 0x7F#32) <<< shift) ||| ((bitmask &&& 0x7F#32) >>> (7 - shift))) &&&
        0x7F#32).getLsbD i =
      bitmask.getLsbD ((i + 7 - shift) % 7) := by
  have hi32 : i < 32 := by omega
  simp only [BitVec.getLsbD_and, BitVec.getLsbD_or, BitVec.getLsbD_shiftLeft,
    BitVec.getLsbD_ushiftRight, getLsbD_week, hi, hi32, decide_true, Bool.true_and, Bool.and_true]
  by_cases hlt : i < shift
  · have hidx : (i + 7 - shift) % 7 = 7 - shift + i := by omega
    have hweek : 7 - shift + i < 7 := by omega
    simp [hlt, hidx, hweek]
  · have hidx : (i + 7 - shift) % 7 = i - shift := by omega
    have hweek : i - shift < 7 := by omega
    have hhigh : ¬ 7 - shift + i < 7 := by omega
    simp [hlt, hidx, hweek, hhigh]

/-- Rotating a bitmask by `days` moves every weekday `days` later. -/
theorem weekday_rotate (bitmask : BitVec 32) (days x : Int) :
    weekday (rotateWeekdaysBitmask bitmask days) x = weekday bitmask (x - days) := by
  have hshift : ((days.tmod 7) + 7).tmod 7 = days % 7 := floorMod_eq_emod (by decide)
  have hlt := weekday_lt x
  simp only [weekday, rotateWeekdaysBitmask, hshift]
  split
  · next hzero =>
      have hidx : (x - days) % 7 = x % 7 := by omega
      simp [BitVec.getLsbD_and, getLsbD_week, hlt, hidx]
  · next hne =>
      rw [getLsbD_rotate bitmask (by omega) (by omega) hlt]
      congr 1
      omega

/-- The word with one bit set, as the source writes it. -/
theorem getLsbD_bit {day : Nat} (hd : day < 32) (i : Nat) :
    (1#32 <<< day).getLsbD i = decide (i = day) := by
  rw [BitVec.getLsbD_shiftLeft, BitVec.getLsbD_one]
  by_cases hi : i = day
  · subst hi; simp [hd]
  · have hne : ¬ i - day = 0 ∨ i < day := by omega
    rcases hne with hne | hne <;> simp [hi, hne]

/-- The bit test of the source. -/
theorem and_bit_ne_zero_iff (bitmask : BitVec 32) {day : Nat} (hd : day < 32) :
    bitmask &&& (1#32 <<< day) ≠ 0#32 ↔ bitmask.getLsbD day = true := by
  constructor
  · intro hne
    cases hbit : bitmask.getLsbD day with
    | true => rfl
    | false =>
        exfalso
        refine hne (BitVec.eq_of_getLsbD_eq fun i _ => ?_)
        rw [BitVec.getLsbD_and, getLsbD_bit hd]
        by_cases hi : i = day
        · subst hi; simp [hbit]
        · simp [hi]
  · intro htrue hzero
    have hand : (bitmask &&& (1#32 <<< day)).getLsbD day = false := by rw [hzero]; simp
    rw [BitVec.getLsbD_and, getLsbD_bit hd, htrue] at hand
    simp at hand

theorem weekday_setBit (bitmask : BitVec 32) {day : Int} (h0 : 0 ≤ day) (h6 : day ≤ 6) (x : Int) :
    weekday (bitmask ||| (1#32 <<< day.toNat)) x = (weekday bitmask x || decide (x % 7 = day)) := by
  rw [weekday, BitVec.getLsbD_or, getLsbD_bit (by omega), weekday]
  congr 1
  rw [decide_eq_decide]
  omega

/-- The bitmask of a weekday list selects the list's days. -/
theorem weekday_computeRecurringRuleWeekdaysBitmask (daysOfWeek : List Int) (x : Int) :
    weekday (computeRecurringRuleWeekdaysBitmask daysOfWeek) x = true ↔ x % 7 ∈ daysOfWeek := by
  have hfold : ∀ (l : List Int) (acc : BitVec 32),
      weekday (l.foldl (fun weekdays (day : Int) =>
        if 0 ≤ day ∧ day ≤ 6 then weekdays ||| (1#32 <<< day.toNat) else weekdays) acc) x = true ↔
        weekday acc x = true ∨ x % 7 ∈ l := by
    intro l
    induction l with
    | nil => intro acc; simp
    | cons day l ih =>
        intro acc
        rw [List.foldl_cons, ih, List.mem_cons]
        by_cases hday : 0 ≤ day ∧ day ≤ 6
        · rw [if_pos hday, weekday_setBit acc hday.1 hday.2, Bool.or_eq_true, decide_eq_true_eq,
            or_assoc]
        · rw [if_neg hday]
          have hne : ¬ x % 7 = day := by omega
          simp [hne]
  have hzero : weekday 0#32 x = false := by simp [weekday]
  rw [computeRecurringRuleWeekdaysBitmask, hfold, hzero]
  simp

/-- The weekday list of a bitmask holds the weekdays it selects. -/
theorem mem_selectedDays {bitmask : BitVec 32} {d : Int} :
    d ∈ selectedDays bitmask ↔ 0 ≤ d ∧ d ≤ 6 ∧ weekday bitmask d = true := by
  simp only [selectedDays, List.mem_map, List.mem_filter, List.mem_range, decide_eq_true_eq]
  constructor
  · rintro ⟨n, ⟨hn, hbit⟩, rfl⟩
    have hmod : (Int.ofNat n % 7).toNat = n := by simp only [Int.ofNat_eq_natCast]; omega
    refine ⟨Int.natCast_nonneg n, by simp only [Int.ofNat_eq_natCast]; omega, ?_⟩
    rw [weekday, hmod]
    exact (and_bit_ne_zero_iff bitmask (by omega)).mp hbit
  · rintro ⟨h0, h6, hday⟩
    have hmod : (d % 7).toNat = d.toNat := by omega
    rw [weekday, hmod] at hday
    refine ⟨d.toNat, ⟨by omega, (and_bit_ne_zero_iff bitmask (by omega)).mpr hday⟩, ?_⟩
    exact Int.toNat_of_nonneg h0

/-! ## reading instants as local days and times -/

theorem utcMidnight_eq (t : Int) : utcMidnight t = t - t % 86400 := by
  rw [utcMidnight, secondsPerDay, floorMod_eq_emod (by decide)]

/-- The shift is the difference of the two local days the instant falls on. -/
theorem dayShift_eq (t kodiOffsetMinutes dispatcharrOffsetMinutes : Int) :
    computeRecurringRuleDayShift (floorMod t secondsPerDay) kodiOffsetMinutes
        dispatcharrOffsetMinutes =
      (t + dispatcharrOffsetMinutes * 60) / 86400 - (t + kodiOffsetMinutes * 60) / 86400 := by
  have hpos : (0 : Int) < 86400 := by decide
  simp only [computeRecurringRuleDayShift, secondsPerDay, floorMod_eq_emod hpos,
    floorDiv_eq_ediv hpos]
  omega

/-- A time of day in a zone, from the instant. -/
theorem secondsOfDay_eq (t offset : Int) :
    floorMod (floorMod t secondsPerDay + offset) secondsPerDay = (t + offset) % 86400 := by
  rw [floorMod_add_floorMod (by decide), secondsPerDay, floorMod_eq_emod (by decide)]

/-! ### ComputeRecurringRuleFields -/

section Fields

variable (startTime endTime firstDay : Int) (weekdaysBitmask : BitVec 32) (offsetMinutes : Int)
  (kodiOffsetMinutesAt : Int → Int) (nowUtc : Int)

/-- How many days later an instant's date is in Dispatcharr's zone than in
Kodi's. -/
def shiftAt : Int :=
  (startTime + offsetMinutes * 60) / 86400 - (startTime + kodiOffsetMinutesAt startTime * 60) / 86400

/-- The fields in terms of local days and times; success is having a weekday. -/
theorem computeRecurringRuleFields_eq :
    let r := computeRecurringRuleFields startTime endTime firstDay weekdaysBitmask offsetMinutes
      kodiOffsetMinutesAt nowUtc
    let shift := shiftAt startTime offsetMinutes kodiOffsetMinutesAt
    r.daysOfWeek = selectedDays (rotateWeekdaysBitmask weekdaysBitmask shift) ∧
      r.ok = !r.daysOfWeek.isEmpty ∧
      r.startSeconds = (startTime + offsetMinutes * 60) % 86400 ∧
      r.endSeconds = (endTime + offsetMinutes * 60) % 86400 ∧
      r.startDate =
        if 0 < firstDay then
          utcMidnight (firstDay + kodiOffsetMinutesAt firstDay * 60) + shift * 86400
        else utcMidnight (nowUtc + offsetMinutes * 60) := by
  simp only [computeRecurringRuleFields, dayShift_eq, secondsOfDay_eq, shiftAt]
  split
  · next hempty => exact ⟨rfl, by simp [hempty], rfl, rfl, rfl⟩
  · next hne => exact ⟨rfl, by simp [hne], rfl, rfl, rfl⟩

end Fields

end DispatcharrPvr
