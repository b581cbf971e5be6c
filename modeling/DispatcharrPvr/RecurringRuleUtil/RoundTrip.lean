import DispatcharrPvr.RecurringRuleUtil

/-!
# RecurringRuleUtil.RoundTrip

What the translation between the two calendars is for.

* `fields_displayTimes` — a rule shown to the user and saved back as it was
  shown is the same rule on the wire, whatever the two zones do;
* `localWeekday_mem_daysOfWeek_iff` — the weekdays sent are those on which the
  occurrences the user ticked really fall in Dispatcharr's zone.

Both are read in local days: `localDay` of an instant in a zone, and the day's
weekday.
-/

namespace DispatcharrPvr

open TruncDiv

/-! ## local days -/

/-- The calendar day of an instant in a zone, counted from 1 January 1970. -/
def localDay (offsetMinutes t : Int) : Int := (t + offsetMinutes * 60) / 86400

/-- Its weekday, 0 for Monday; 1 January 1970 is a Thursday. -/
def localWeekday (offsetMinutes t : Int) : Int := (localDay offsetMinutes t + 3) % 7

/-- A whole number of days later the local day is that many later. -/
theorem localDay_add (offsetMinutes t n : Int) :
    localDay offsetMinutes (t + n * 86400) = localDay offsetMinutes t + n := by
  simp only [localDay]
  omega

theorem localWeekday_bounds (offsetMinutes t : Int) :
    0 ≤ localWeekday offsetMinutes t ∧ localWeekday offsetMinutes t ≤ 6 := by
  simp only [localWeekday]
  omega

/-- With fixed offsets the shift at one instant is the shift at every instant
a whole number of days away. -/
theorem shiftAt_eq (startTime dispatcharrOffset kodiOffset n : Int) :
    shiftAt startTime dispatcharrOffset (fun _ => kodiOffset) =
      localDay dispatcharrOffset (startTime + n * 86400) -
        localDay kodiOffset (startTime + n * 86400) := by
  rw [localDay_add, localDay_add]
  simp only [shiftAt, localDay]
  omega

theorem weekday_emod (bitmask : BitVec 32) (x : Int) : weekday bitmask (x % 7) = weekday bitmask x := by
  simp only [weekday, Int.emod_emod]

/-! ## every occurrence -/

/-- **Weekday translation**: with fixed offsets, an occurrence of the rule
falls on one of the weekdays sent to Dispatcharr, read in Dispatcharr's zone,
exactly when it falls on one of the weekdays ticked in Kodi, read in Kodi's. -/
theorem localWeekday_mem_daysOfWeek_iff (startTime endTime firstDay : Int)
    (weekdaysBitmask : BitVec 32) (dispatcharrOffset kodiOffset nowUtc n : Int) :
    localWeekday dispatcharrOffset (startTime + n * 86400) ∈
        (computeRecurringRuleFields startTime endTime firstDay weekdaysBitmask dispatcharrOffset
          (fun _ => kodiOffset) nowUtc).daysOfWeek ↔
      weekdaysBitmask &&& (1#32 <<< (localWeekday kodiOffset (startTime + n * 86400)).toNat) ≠
        0#32 := by
  have hdays := (computeRecurringRuleFields_eq startTime endTime firstDay weekdaysBitmask
    dispatcharrOffset (fun _ => kodiOffset) nowUtc).1
  have hd := localWeekday_bounds dispatcharrOffset (startTime + n * 86400)
  have hk := localWeekday_bounds kodiOffset (startTime + n * 86400)
  -- the two weekdays differ by the shift
  have hshift : (localWeekday dispatcharrOffset (startTime + n * 86400) -
      shiftAt startTime dispatcharrOffset (fun _ => kodiOffset)) % 7 =
        localWeekday kodiOffset (startTime + n * 86400) := by
    rw [shiftAt_eq startTime dispatcharrOffset kodiOffset n]
    simp only [localWeekday]
    omega
  have hbit : weekday weekdaysBitmask (localWeekday kodiOffset (startTime + n * 86400)) =
      weekdaysBitmask.getLsbD (localWeekday kodiOffset (startTime + n * 86400)).toNat := by
    have hmod : localWeekday kodiOffset (startTime + n * 86400) % 7 =
        localWeekday kodiOffset (startTime + n * 86400) := by omega
    rw [weekday, hmod]
  rw [hdays, mem_selectedDays, weekday_rotate, ← weekday_emod, hshift, hbit,
    and_bit_ne_zero_iff _ (by omega)]
  constructor
  · intro h; exact h.2.2
  · intro h; exact ⟨hd.1, hd.2, h⟩

/-! ## displaying a rule and saving it back -/

section RoundTrip

variable {startDate startSeconds endSeconds : Int} {D K : Int → Int}

/-- At a fixed point of the offset resolution the shift used for the display
is the one the way back uses. -/
theorem displayTimes_dayShift
    (hfix : D (computeRecurringRuleDisplayTimes startDate startSeconds endSeconds D K).startTime =
      displayStartOffset startDate startSeconds D) :
    let shown := computeRecurringRuleDisplayTimes startDate startSeconds endSeconds D K
    shown.dayShift = shiftAt shown.startTime (D shown.startTime) K := by
  intro shown
  show computeRecurringRuleDayShift (floorMod shown.startTime secondsPerDay) (K shown.startTime)
    (displayStartOffset startDate startSeconds D) = _
  rw [dayShift_eq, ← hfix]
  rfl

/-- The first day is within twelve hours of noon of its date in Kodi's zone. -/
theorem displayTimes_firstDay (hK : ∀ a b, K a - K b < 720) :
    let shown := computeRecurringRuleDisplayTimes startDate startSeconds endSeconds D K
    let midnight := startDate - shown.dayShift * 86400
    midnight < shown.firstDay + K shown.firstDay * 60 ∧
      shown.firstDay + K shown.firstDay * 60 < midnight + 86400 := by
  intro shown midnight
  have hfirst : shown.firstDay = midnight + 43200 -
      K (midnight + 43200 - K shown.startTime * 60) * 60 := rfl
  have h1 := hK shown.firstDay (midnight + 43200 - K shown.startTime * 60)
  have h2 := hK (midnight + 43200 - K shown.startTime * 60) shown.firstDay
  omega

/-- The weekdays shown are moved back when they are saved. -/
theorem mem_daysOfWeek_roundTrip {daysOfWeek : List Int} (hdays : ∀ d ∈ daysOfWeek, 0 ≤ d ∧ d ≤ 6)
    (shift d : Int) :
    d ∈ selectedDays (rotateWeekdaysBitmask
        (rotateWeekdaysBitmask (computeRecurringRuleWeekdaysBitmask daysOfWeek) (-shift)) shift) ↔
      d ∈ daysOfWeek := by
  have hback : d - shift - -shift = d := by omega
  rw [mem_selectedDays, weekday_rotate, weekday_rotate, hback,
    weekday_computeRecurringRuleWeekdaysBitmask]
  constructor
  · rintro ⟨h0, h6, hmem⟩
    have hmod : d % 7 = d := by omega
    rwa [hmod] at hmem
  · intro hmem
    obtain ⟨h0, h6⟩ := hdays d hmem
    have hmod : d % 7 = d := by omega
    exact ⟨h0, h6, hmod.symm ▸ hmem⟩

/-- **Displaying a rule and saving it back**: where the start's offset
resolution reached a fixed point and the first day shown is a real instant, the
rule's start date, start time of day and weekdays come back as they were, and
so does its end time of day when the end resolved with the start's offset. -/
theorem fields_displayTimes {daysOfWeek : List Int} (nowUtc : Int)
    (hdate : startDate % 86400 = 0) (hstart : 0 ≤ startSeconds ∧ startSeconds < 86400)
    (hend : 0 ≤ endSeconds ∧ endSeconds < 86400) (hdays : ∀ d ∈ daysOfWeek, 0 ≤ d ∧ d ≤ 6)
    (hne : daysOfWeek ≠ []) (hK : ∀ a b, K a - K b < 720)
    (hfix : D (computeRecurringRuleDisplayTimes startDate startSeconds endSeconds D K).startTime =
      displayStartOffset startDate startSeconds D)
    (hfirst : 0 < (computeRecurringRuleDisplayTimes startDate startSeconds endSeconds D K).firstDay) :
    let shown := computeRecurringRuleDisplayTimes startDate startSeconds endSeconds D K
    let weekdays :=
      rotateWeekdaysBitmask (computeRecurringRuleWeekdaysBitmask daysOfWeek) (-shown.dayShift)
    let saved := computeRecurringRuleFields shown.startTime shown.endTime shown.firstDay weekdays
      (D shown.startTime) K nowUtc
    saved.ok = true ∧ saved.startDate = startDate ∧ saved.startSeconds = startSeconds ∧
      (∀ d, d ∈ saved.daysOfWeek ↔ d ∈ daysOfWeek) ∧
      (displayEndOffset startDate startSeconds endSeconds D = D shown.startTime →
        saved.endSeconds = endSeconds) := by
  intro shown weekdays saved
  obtain ⟨hdaysOut, hok, hstartOut, hendOut, hdateOut⟩ :=
    computeRecurringRuleFields_eq shown.startTime shown.endTime shown.firstDay weekdays
      (D shown.startTime) K nowUtc
  have hshift : shown.dayShift = shiftAt shown.startTime (D shown.startTime) K :=
    displayTimes_dayShift hfix
  have hmem : ∀ d, d ∈ saved.daysOfWeek ↔ d ∈ daysOfWeek := by
    intro d
    rw [hdaysOut, ← hshift]
    exact mem_daysOfWeek_roundTrip hdays shown.dayShift d
  have hstartTime : shown.startTime = startDate + startSeconds - D shown.startTime * 60 := by
    rw [hfix]; rfl
  refine ⟨?_, ?_, ?_, hmem, fun hsame => ?_⟩
  · obtain ⟨d, hd⟩ := List.exists_mem_of_ne_nil _ hne
    have hsaved : saved.daysOfWeek ≠ [] := List.ne_nil_of_mem ((hmem d).mpr hd)
    rw [hok, Bool.not_eq_true', List.isEmpty_eq_false_iff]
    exact hsaved
  · have hnoon : startDate - shown.dayShift * 86400 < shown.firstDay + K shown.firstDay * 60 ∧
        shown.firstDay + K shown.firstDay * 60 < startDate - shown.dayShift * 86400 + 86400 :=
      displayTimes_firstDay hK
    rw [hdateOut, if_pos hfirst, ← hshift, utcMidnight_eq]
    omega
  · rw [hstartOut]
    omega
  · have hendTime : shown.endTime =
        displayEndLocal startDate startSeconds endSeconds - D shown.startTime * 60 := by
      rw [← hsame]; rfl
    rw [hendOut, hendTime]
    simp only [displayEndLocal]
    split <;> omega

/-- An overnight rule, 23:30 to 01:00 from 4 October 2024 in a zone two hours
ahead of UTC, shown by a Kodi five hours behind it that leaves daylight saving
in the meantime. -/
theorem fields_displayTimes_overnight :
    let D : Int → Int := fun _ => 120
    let K : Int → Int := fun t => if t < 1728060000 then -240 else -300
    let shown := computeRecurringRuleDisplayTimes 1728000000 84600 3600 D K
    let saved := computeRecurringRuleFields shown.startTime shown.endTime shown.firstDay
      (rotateWeekdaysBitmask (computeRecurringRuleWeekdaysBitmask [4, 5]) (-shown.dayShift)) 120 K 0
    saved.startDate = 1728000000 ∧ saved.startSeconds = 84600 ∧ saved.endSeconds = 3600 ∧
      ∀ d, d ∈ saved.daysOfWeek ↔ d ∈ [4, 5] := by
  intro D K shown saved
  have hK : ∀ a b, K a - K b < 720 := by
    intro a b
    simp only [K]
    split <;> split <;> omega
  have h := @fields_displayTimes 1728000000 84600 3600 D K [4, 5] 0 (by decide) (by decide)
    (by decide) (by decide) (by decide) hK rfl (by decide)
  exact ⟨h.2.1, h.2.2.1, h.2.2.2.2 rfl, h.2.2.2.1⟩

end RoundTrip

end DispatcharrPvr
