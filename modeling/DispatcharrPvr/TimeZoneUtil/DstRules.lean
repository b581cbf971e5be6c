import DispatcharrPvr.TimeZoneUtil

/-!
# TimeZoneUtil.DstRules

The built-in rules against the rules in words: daylight time from the second
Sunday of March to the first Sunday of November, at two o'clock local time, and
from the last Sunday of March to the last Sunday of October, at one o'clock UTC.

A year is an `int`, so the rules are those of the instants whose year an `int`
can hold; `isUsCanadaDstInEffect_late` is an instant after them.
-/

namespace DispatcharrPvr

open Gregorian

/-! ## weekdays of a month -/

/-- The years that the helpers can compute with: neither the year nor its
distance from 1900 leaves an `int`. -/
def IntYear (year : Int) : Prop := intLowest ≤ year - 1900 ∧ year ≤ intMax

/-- The fields of the first second of a date that fields name. -/
theorem gmTimeUtc_names {tmVal : Tm} {d : Date} (hnames : tmVal.Names d)
    (hmidnight : tmVal.secondOfDay = 0) (hyear : IntYear d.year) :
    gmTimeUtc (portableTimeGm tmVal) {} = civilFields d 0 := by
  obtain ⟨hlow, hhigh⟩ := hyear
  rw [gmTimeUtc, portableTimeGm, hnames.utcCivilSeconds_eq, hmidnight,
    utcCivilFromSeconds_dayNumber d (by decide) (by decide), if_pos (by
      simp only [intMax] at hhigh ⊢
      omega)]
  rfl

section Weekdays

variable {year month0 weekday : Int}

theorem nthWeekdayOfMonth_eq (hyear : IntYear year) (hmonth : 0 ≤ month0 ∧ month0 ≤ 11)
    (hweekday : 0 ≤ weekday ∧ weekday ≤ 6) (n : Int) :
    nthWeekdayOfMonth year month0 weekday n =
      1 + (weekday - Gregorian.weekday (monthStart year (month0 + 1))) % 7 + (n - 1) * 7 := by
  have hdays := daysInMonth_bounds year (month0 + 1)
  let d : Date := ⟨year, month0 + 1, 1, by omega, by omega, by decide, by omega⟩
  have hnames : Tm.Names { tmYear := year - 1900, tmMon := month0, tmMday := 1 } d :=
    ⟨by simp only [d]; omega, rfl, rfl⟩
  have hresolved := gmTimeUtc_names hnames rfl hyear
  have hnumber : d.dayNumber = monthStart year (month0 + 1) := by
    simp only [d, Date.dayNumber]
    omega
  simp only [nthWeekdayOfMonth, hresolved, civilFields, hnumber]
  simp only [Gregorian.weekday]
  rw [Int.tmod_eq_emod_of_nonneg (by omega)]
  omega

/-- **The n-th weekday of a month** is the n-th of its days on that weekday. -/
theorem daysOnWeekday_getElem?_nthWeekdayOfMonth (month0 : Int) (n : Nat) (hyear : IntYear year)
    (hmonth : 0 ≤ month0 ∧ month0 ≤ 11) (hweekday : 0 ≤ weekday ∧ weekday ≤ 6)
    (hn : n < (daysOnWeekday year (month0 + 1) weekday).length) :
    (daysOnWeekday year (month0 + 1) weekday)[n]? =
      some (nthWeekdayOfMonth year month0 weekday (n + 1)) := by
  obtain ⟨first, weeks, hfirst, -, -, -, hlist⟩ :=
    daysOnWeekday_eq year (month0 + 1) hweekday
  rw [hlist, List.length_map, List.length_range] at hn
  rw [hlist, nthWeekdayOfMonth_eq hyear hmonth hweekday, List.getElem?_map,
    List.getElem?_range hn, Option.map_some]
  congr 1
  omega

/-- **The last weekday of a month** is the last of its days on that weekday. -/
theorem daysOnWeekday_getLast?_lastWeekdayOfMonth (month0 : Int) (hyear : IntYear year)
    (hmonth : 0 ≤ month0 ∧ month0 ≤ 11) (hweekday : 0 ≤ weekday ∧ weekday ≤ 6) :
    (daysOnWeekday year (month0 + 1) weekday).getLast? =
      some (lastWeekdayOfMonth year month0 weekday) := by
  have hdays := daysInMonth_bounds year (month0 + 1)
  have htable := @daysInMonthTable_eq year (month0 + 1) (by omega) (by omega)
  have htwo : month0 + 1 = 2 ↔ month0 = 1 := by omega
  rw [Int.add_sub_cancel] at htable
  simp only [htwo] at htable
  let d : Date := ⟨year, month0 + 1, daysInMonth year (month0 + 1), by omega, by omega, by omega,
    Int.le_refl _⟩
  have hnames : Tm.Names
      { tmYear := year - 1900, tmMon := month0, tmMday := daysInMonth year (month0 + 1) } d :=
    ⟨by simp only [d]; omega, rfl, rfl⟩
  have hresolved := gmTimeUtc_names hnames rfl hyear
  have hnumber : d.dayNumber = monthStart year (month0 + 1) + (daysInMonth year (month0 + 1) - 1) := rfl
  obtain ⟨first, weeks, hfirst, hlow, hhigh, hfour, hlist⟩ :=
    daysOnWeekday_eq year (month0 + 1) hweekday
  rw [hlist, List.getLast?_map, List.getLast?_range, if_neg (by omega), Option.map_some]
  simp only [lastWeekdayOfMonth, htable, hresolved, civilFields, hnumber]
  simp only [Gregorian.weekday] at hfirst ⊢
  rw [Int.tmod_eq_emod_of_nonneg (by omega)]
  congr 1
  omega

end Weekdays

/-! ## the rules in words -/

/-- An hour of a day in a zone, as an instant. -/
def localInstant (year month day hour offsetMinutes : Int) : Int :=
  (monthStart year month + (day - 1)) * 86400 + hour * 3600 - offsetMinutes * 60

/-- From the second Sunday of March, at two o'clock standard time, to the first
Sunday of November, at two o'clock daylight time. -/
def UsCanadaDst (standardOffsetMinutes t : Int) : Prop :=
  ∃ year spring fall : Int, (daysOnWeekday year 3 0)[1]? = some spring ∧
    (daysOnWeekday year 11 0)[0]? = some fall ∧
    localInstant year 3 spring 2 standardOffsetMinutes ≤ t ∧
    t < localInstant year 11 fall 2 (standardOffsetMinutes + 60)

/-- From the last Sunday of March to the last Sunday of October, at one o'clock
UTC. -/
def EuDst (t : Int) : Prop :=
  ∃ year spring fall : Int, (daysOnWeekday year 3 0).getLast? = some spring ∧
    (daysOnWeekday year 10 0).getLast? = some fall ∧
    localInstant year 3 spring 1 0 ≤ t ∧ t < localInstant year 10 fall 1 0

/-- An hour of a day that fields name in the local time of a zone. -/
theorem portableTimeGm_eq (year month0 day hour : Int) (hmonth : 0 ≤ month0 ∧ month0 ≤ 11) :
    portableTimeGm { tmYear := year - 1900, tmMon := month0, tmMday := day, tmHour := hour } =
      localInstant year (month0 + 1) day hour 0 := by
  have hyear : 1900 + (year - 1900) + month0 / 12 = year := by omega
  have hmod : month0 % 12 = month0 := by omega
  rw [portableTimeGm, utcCivilSeconds_eq, localInstant]
  simp only [hyear, hmod]
  omega

/-- An instant between two instants of a year is in that year. -/
theorem year_of_between {d : Date} {s year : Int} (h0 : 0 ≤ s) (h1 : s < 86400)
    (hstart : yearStart year * 86400 ≤ d.dayNumber * 86400 + s)
    (hstop : d.dayNumber * 86400 + s < yearStart (year + 1) * 86400) : d.year = year := by
  have hlow := (d.le_year_iff year).mpr (by omega)
  have hhigh := (d.le_year_iff (year + 1)).not.mpr (by omega)
  omega

/-- The months from March to November lie well inside their year. -/
theorem monthStart_bounds (year month : Int) (h3 : 3 ≤ month) (h11 : month ≤ 11) :
    yearStart year + 59 ≤ monthStart year month ∧
      monthStart year month + 60 ≤ yearStart (year + 1) := by
  have hyear := daysInYear_bounds year
  rw [yearStart_succ, monthStart, daysBeforeMonth_eq (by omega) (by omega), if_neg (by omega)]
  split <;> omega

section Rules

variable {d : Date} {s : Int}

theorem tmYear_gmTimeUtc (hd : IntYear d.year) (h0 : 0 ≤ s) (h1 : s < 86400) :
    (gmTimeUtc (d.dayNumber * 86400 + s) {}).tmYear + 1900 = d.year := by
  obtain ⟨hlow, hhigh⟩ := hd
  rw [gmTimeUtc, utcCivilFromSeconds_dayNumber d h0 h1, if_pos (by
    simp only [intMax] at hhigh ⊢
    omega)]
  simp only [Option.getD_some, civilFields]
  omega

/-- **The US and Canadian rule** is the one in words. -/
theorem isUsCanadaDstInEffect_iff {standardOffsetMinutes : Int} (hd : IntYear d.year) (h0 : 0 ≤ s)
    (h1 : s < 86400) (hlow : -40320 ≤ standardOffsetMinutes)
    (hhigh : standardOffsetMinutes ≤ 40320) :
    isUsCanadaDstInEffect (d.dayNumber * 86400 + s) standardOffsetMinutes = true ↔
      UsCanadaDst standardOffsetMinutes (d.dayNumber * 86400 + s) := by
  have hspring : (daysOnWeekday d.year 3 0)[1]? = some (nthWeekdayOfMonth d.year 2 0 2) :=
    daysOnWeekday_getElem?_nthWeekdayOfMonth 2 1 hd (by decide) (by decide)
      (Nat.lt_of_lt_of_le (by decide) (four_le_length_daysOnWeekday (by decide)))
  have hfall : (daysOnWeekday d.year 11 0)[0]? = some (nthWeekdayOfMonth d.year 10 0 1) :=
    daysOnWeekday_getElem?_nthWeekdayOfMonth 10 0 hd (by decide) (by decide)
      (Nat.lt_of_lt_of_le (by decide) (four_le_length_daysOnWeekday (by decide)))
  simp only [isUsCanadaDstInEffect, tmYear_gmTimeUtc hd h0 h1, decide_eq_true_iff]
  rw [portableTimeGm_eq _ _ _ _ (by decide), portableTimeGm_eq _ _ _ _ (by decide)]
  have hthree : (2 : Int) + 1 = 3 := rfl
  have heleven : (10 : Int) + 1 = 11 := rfl
  rw [hthree, heleven]
  constructor
  · intro h
    refine ⟨d.year, _, _, hspring, hfall, ?_, ?_⟩
    · simp only [localInstant] at h ⊢
      omega
    · simp only [localInstant] at h ⊢
      omega
  · rintro ⟨year, spring, fall, hspring', hfall', hstart, hstop⟩
    have hspringDay := mem_daysOnWeekday_bounds (List.mem_of_getElem? hspring')
    have hfallDay := mem_daysOnWeekday_bounds (List.mem_of_getElem? hfall')
    have hmarchDays := daysInMonth_bounds year 3
    have hnovemberDays := daysInMonth_bounds year 11
    have hmarchStart := monthStart_bounds year 3 (by decide) (by decide)
    have hnovemberStart := monthStart_bounds year 11 (by decide) (by decide)
    obtain rfl : d.year = year := by
      simp only [localInstant] at hstart hstop
      exact year_of_between h0 h1 (by omega) (by omega)
    obtain rfl := Option.some.inj (hspring.symm.trans hspring')
    obtain rfl := Option.some.inj (hfall.symm.trans hfall')
    simp only [localInstant] at hstart hstop ⊢
    omega

/-- **The EU rule** is the one in words. -/
theorem isEuDstInEffect_iff (hd : IntYear d.year) (h0 : 0 ≤ s) (h1 : s < 86400) :
    isEuDstInEffect (d.dayNumber * 86400 + s) = true ↔ EuDst (d.dayNumber * 86400 + s) := by
  have hspring : (daysOnWeekday d.year 3 0).getLast? = some (lastWeekdayOfMonth d.year 2 0) :=
    daysOnWeekday_getLast?_lastWeekdayOfMonth 2 hd (by decide) (by decide)
  have hfall : (daysOnWeekday d.year 10 0).getLast? = some (lastWeekdayOfMonth d.year 9 0) :=
    daysOnWeekday_getLast?_lastWeekdayOfMonth 9 hd (by decide) (by decide)
  simp only [isEuDstInEffect, tmYear_gmTimeUtc hd h0 h1, decide_eq_true_iff]
  rw [portableTimeGm_eq _ _ _ _ (by decide), portableTimeGm_eq _ _ _ _ (by decide)]
  constructor
  · exact fun h => ⟨d.year, _, _, hspring, hfall, h.1, h.2⟩
  · rintro ⟨year, spring, fall, hspring', hfall', hstart, hstop⟩
    have hspringDay := mem_daysOnWeekday_bounds (List.mem_of_getLast? hspring')
    have hfallDay := mem_daysOnWeekday_bounds (List.mem_of_getLast? hfall')
    have hmarchDays := daysInMonth_bounds year 3
    have hoctoberDays := daysInMonth_bounds year 10
    have hmarchStart := monthStart_bounds year 3 (by decide) (by decide)
    have hoctoberStart := monthStart_bounds year 10 (by decide) (by decide)
    obtain rfl : d.year = year := by
      simp only [localInstant] at hstart hstop
      exact year_of_between h0 h1 (by omega) (by omega)
    obtain rfl := Option.some.inj (hspring.symm.trans hspring')
    obtain rfl := Option.some.inj (hfall.symm.trans hfall')
    exact ⟨hstart, hstop⟩

end Rules

/-! ## the zones -/

/-- When a zone is an hour ahead of its standard time: while its rule is in
effect, and for good from the instant that its tables give. -/
def KnownTimeZone.OnDaylightTime (zone : KnownTimeZone) (t : Int) (applyZoneRuleChanges : Bool) :
    Prop :=
  (applyZoneRuleChanges = true ∧ zone.permanentDaylightFromUtc ≠ 0 ∧
    zone.permanentDaylightFromUtc ≤ t) ∨
  (zone.family = .usCanada ∧ UsCanadaDst zone.standardOffsetMinutes t) ∨
  (zone.family = .eu ∧ EuDst t)

theorem standardOffsetMinutes_bounds :
    ∀ zone ∈ knownTimeZones, -40320 ≤ zone.standardOffsetMinutes ∧
      zone.standardOffsetMinutes ≤ 40320 := by
  decide

theorem offsetMinutes_eq {zone : KnownTimeZone} (hzone : zone ∈ knownTimeZones) {d : Date} {s : Int}
    (hd : IntYear d.year) (h0 : 0 ≤ s) (h1 : s < 86400) (applyZoneRuleChanges : Bool) :
    (zone.OnDaylightTime (d.dayNumber * 86400 + s) applyZoneRuleChanges →
      zone.offsetMinutes (d.dayNumber * 86400 + s) applyZoneRuleChanges =
        zone.standardOffsetMinutes + 60) ∧
    (¬ zone.OnDaylightTime (d.dayNumber * 86400 + s) applyZoneRuleChanges →
      zone.offsetMinutes (d.dayNumber * 86400 + s) applyZoneRuleChanges =
        zone.standardOffsetMinutes) := by
  obtain ⟨hlow, hhigh⟩ := standardOffsetMinutes_bounds zone hzone
  have hus := isUsCanadaDstInEffect_iff hd h0 h1 hlow hhigh
  have heu := isEuDstInEffect_iff hd h0 h1
  rw [KnownTimeZone.offsetMinutes, KnownTimeZone.OnDaylightTime]
  split
  · next hpermanent => exact ⟨fun _ => rfl, fun hno => absurd (.inl hpermanent) hno⟩
  · next hpermanent =>
      cases hfamily : zone.family with
      | none => simp [hpermanent]
      | usCanada =>
          by_cases hrule : isUsCanadaDstInEffect (d.dayNumber * 86400 + s)
              zone.standardOffsetMinutes = true
          · simp [hrule, hus.mp hrule]
          · simp [hpermanent, hrule, mt hus.mpr hrule]
      | eu =>
          by_cases hrule : isEuDstInEffect (d.dayNumber * 86400 + s) = true
          · simp [hrule, heu.mp hrule]
          · simp [hpermanent, hrule, mt heu.mpr hrule]

/-- **The built-in rules are the rules in words**, in every year of an `int`:
the weekdays of a month, the two rules at every instant, and the offsets of the
known zones. -/
theorem dstRules_reference :
    (∀ year month0 weekday : Int, IntYear year → 0 ≤ month0 ∧ month0 ≤ 11 →
      0 ≤ weekday ∧ weekday ≤ 6 →
      (∀ n : Nat, n < (daysOnWeekday year (month0 + 1) weekday).length →
        (daysOnWeekday year (month0 + 1) weekday)[n]? =
          some (nthWeekdayOfMonth year month0 weekday (n + 1))) ∧
      (daysOnWeekday year (month0 + 1) weekday).getLast? =
        some (lastWeekdayOfMonth year month0 weekday)) ∧
    (∀ (d : Date) (s standardOffsetMinutes : Int), IntYear d.year → 0 ≤ s ∧ s < 86400 →
      -40320 ≤ standardOffsetMinutes ∧ standardOffsetMinutes ≤ 40320 →
      (isUsCanadaDstInEffect (d.dayNumber * 86400 + s) standardOffsetMinutes = true ↔
        UsCanadaDst standardOffsetMinutes (d.dayNumber * 86400 + s))) ∧
    (∀ (d : Date) (s : Int), IntYear d.year → 0 ≤ s ∧ s < 86400 →
      (isEuDstInEffect (d.dayNumber * 86400 + s) = true ↔ EuDst (d.dayNumber * 86400 + s))) ∧
    ∀ (zoneName : ByteString) (zone : KnownTimeZone) (d : Date) (s : Int)
      (applyZoneRuleChanges : Bool), IntYear d.year → 0 ≤ s ∧ s < 86400 →
      knownTimeZones.find? (fun zone => canonicalKnownZoneName zoneName == zone.ianaName) =
        some zone →
      ∃ offsetMinutes, computeKnownZoneOffsetMinutes zoneName (d.dayNumber * 86400 + s)
          applyZoneRuleChanges = some offsetMinutes ∧
        (zone.OnDaylightTime (d.dayNumber * 86400 + s) applyZoneRuleChanges →
          offsetMinutes = zone.standardOffsetMinutes + 60) ∧
        (¬ zone.OnDaylightTime (d.dayNumber * 86400 + s) applyZoneRuleChanges →
          offsetMinutes = zone.standardOffsetMinutes) := by
  refine ⟨?_, ?_, ?_, ?_⟩
  · intro year month0 weekday hyear hmonth hweekday
    exact ⟨fun n hn => daysOnWeekday_getElem?_nthWeekdayOfMonth month0 n hyear hmonth hweekday hn,
      daysOnWeekday_getLast?_lastWeekdayOfMonth month0 hyear hmonth hweekday⟩
  · exact fun d s _ hd hs hoffset => isUsCanadaDstInEffect_iff hd hs.1 hs.2 hoffset.1 hoffset.2
  · exact fun d s hd hs => isEuDstInEffect_iff hd hs.1 hs.2
  · intro zoneName zone d s applyZoneRuleChanges hd hs hfind
    refine ⟨_, by rw [computeKnownZoneOffsetMinutes, hfind]; rfl, ?_⟩
    exact offsetMinutes_eq (List.mem_of_find?_eq_some hfind) hd hs.1 hs.2 applyZoneRuleChanges

/-- The last second of standard time in New York, in the spring of 2026. -/
theorem dstRules_new_york :
    isUsCanadaDstInEffect ((⟨2026, 3, 8, by decide⟩ : Date).dayNumber * 86400 + 25199) (-300) =
        true ↔
      UsCanadaDst (-300) ((⟨2026, 3, 8, by decide⟩ : Date).dayNumber * 86400 + 25199) :=
  dstRules_reference.2.1 ⟨2026, 3, 8, by decide⟩ 25199 (-300) (by unfold IntYear; decide)
    (by decide) (by decide)

/-- A summer after the last year of an `int`, which is taken for 1900. -/
theorem isUsCanadaDstInEffect_late :
    ¬ ∀ t : Int, isUsCanadaDstInEffect t (-300) = true ↔ UsCanadaDst (-300) t := by
  intro h
  have hdst : UsCanadaDst (-300) (localInstant 2147485648 7 1 0 0) :=
    ⟨2147485648, 8, 1, by decide +kernel, by decide +kernel, by decide, by decide⟩
  exact absurd ((h _).mpr hdst) (by decide +kernel)

end DispatcharrPvr
