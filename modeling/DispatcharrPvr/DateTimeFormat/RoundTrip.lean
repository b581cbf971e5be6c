import DispatcharrPvr.DateTimeFormat
import DispatcharrPvr.TimeUtil.Bijection

/-!
# DateTimeFormat.RoundTrip

The codecs of the Dispatcharr API undo each other.

* `timeFromIso_of_digits` — what a text with digits in its fields decodes to:
  the second its fields name, less its offset, and 0 where they name none;
* `timeCodecs` — every rendering of an instant decodes to the instant, whatever
  its offset and its fraction, and the date and time-of-day codecs are inverse.
-/

namespace DispatcharrPvr

open Gregorian

/-! ## fields of digits -/

/-- The time of day that the fields name; 60 is a leap second. -/
def Tm.NamesTime (tmVal : Tm) : Prop :=
  (0 ≤ tmVal.tmHour ∧ tmVal.tmHour ≤ 23) ∧ (0 ≤ tmVal.tmMin ∧ tmVal.tmMin ≤ 59) ∧
    (0 ≤ tmVal.tmSec ∧ tmVal.tmSec ≤ 60)

theorem Tm.namesDate_iff {tmVal : Tm} :
    isValidCivilDate (tmVal.tmYear + 1900) (tmVal.tmMon + 1) tmVal.tmMday = true ↔
      tmVal.NamesDate := by
  rw [isValidCivilDate_iff, NamesDate, Int.add_comm]

theorem hasFieldOutOfRange_iff {tmVal : Tm} :
    hasFieldOutOfRange tmVal = false ↔ tmVal.NamesDate ∧ tmVal.NamesTime := by
  rw [hasFieldOutOfRange, decide_eq_false_iff_not, Bool.not_eq_true', ← Bool.not_eq_true,
    Tm.namesDate_iff, Tm.NamesTime]
  constructor
  · intro h
    have hdate : tmVal.NamesDate := by
      by_contra hno
      exact h (.inr (.inr (.inr (.inr (.inr (.inr (.inr (.inr (.inr (.inr hno))))))))))
    refine ⟨hdate, ?_⟩
    simp only [hdate, not_true, or_false] at h
    omega
  · rintro ⟨hdate, htime⟩
    have hmonth := daysInMonth_bounds (1900 + tmVal.tmYear) (tmVal.tmMon + 1)
    have h := hdate
    simp only [Tm.NamesDate, IsDate] at h
    simp only [hdate, not_true, or_false]
    omega

/-- Years of four digits. -/
def Formattable (d : Date) : Prop := 0 ≤ d.year ∧ d.year ≤ 9999

/-- The seconds of a year of four digits, before the year 0 too, fit a
`time_t`. -/
theorem portableTimeGmSaturating_eq {tmVal : Tm} {d : Date} (hnames : tmVal.Names d)
    (hlow : -9999 ≤ d.year) (hhigh : d.year ≤ 9999) (htime : tmVal.NamesTime) :
    portableTimeGmSaturating tmVal = d.dayNumber * 86400 + tmVal.secondOfDay := by
  have hseconds := hnames.utcCivilSeconds_eq
  have hfirst := (d.le_year_iff (-9999)).mp hlow
  have hlast := (d.le_year_iff 10000).not.mp (by omega)
  have hfirst' : yearStart (-9999) = -4371587 := by decide
  have hlast' : yearStart 10000 = 2932897 := by decide
  simp only [Tm.NamesTime] at htime
  simp only [Tm.secondOfDay] at hseconds ⊢
  rw [portableTimeGmSaturating, saturatingTimeGm, latestRepresentableTime,
    earliestRepresentableTime, if_neg (by omega), if_neg (by omega), hseconds]

/-- The date and time fields are digits. -/
structure DigitFields (isoStr : ByteString) : Prop where
  length : 19 ≤ isoStr.length
  year : (substr isoStr 0 4).all Decimal.isDigit = true
  mon : (substr isoStr 5 2).all Decimal.isDigit = true
  mday : (substr isoStr 8 2).all Decimal.isDigit = true
  hour : (substr isoStr 11 2).all Decimal.isDigit = true
  min : (substr isoStr 14 2).all Decimal.isDigit = true
  sec : (substr isoStr 17 2).all Decimal.isDigit = true

/-- The numbers of the fields. -/
def isoNumbers (isoStr : ByteString) : Tm where
  tmYear := Decimal.value (substr isoStr 0 4) - 1900
  tmMon := Decimal.value (substr isoStr 5 2) - 1
  tmMday := Decimal.value (substr isoStr 8 2)
  tmHour := Decimal.value (substr isoStr 11 2)
  tmMin := Decimal.value (substr isoStr 14 2)
  tmSec := Decimal.value (substr isoStr 17 2)

theorem length_substr {s : ByteString} {pos count : Nat} (h : pos + count ≤ s.length) :
    (substr s pos count).length = count := by
  rw [substr, List.length_take, List.length_drop]
  omega

/-- A field of digits is read as its number. -/
theorem stoi_substr {s : ByteString} {pos count : Nat} (hcount : 0 < count) (hcount' : count ≤ 9)
    (h : pos + count ≤ s.length) (hdigits : (substr s pos count).all Decimal.isDigit = true) :
    Decimal.stoi (substr s pos count) = some (Decimal.value (substr s pos count) : Int) ∧
      Decimal.value (substr s pos count) < 10 ^ count := by
  have hlength := length_substr h
  have hlt := Decimal.value_lt hdigits
  rw [hlength] at hlt
  have hpow : 10 ^ count ≤ 10 ^ 9 := Nat.pow_le_pow_right (by decide) hcount'
  refine ⟨Decimal.stoi_of_digits (fun hnil => ?_) hdigits (by omega), hlt⟩
  rw [hnil] at hlength
  simp at hlength
  omega

theorem isoFields_of_digits {isoStr : ByteString} (h : DigitFields isoStr) :
    isoFields isoStr = some (isoNumbers isoStr) := by
  have hlength := h.length
  rw [isoFields, (stoi_substr (by decide) (by decide) (by omega) h.year).1,
    (stoi_substr (by decide) (by decide) (by omega) h.mon).1,
    (stoi_substr (by decide) (by decide) (by omega) h.mday).1,
    (stoi_substr (by decide) (by decide) (by omega) h.hour).1,
    (stoi_substr (by decide) (by decide) (by omega) h.min).1,
    (stoi_substr (by decide) (by decide) (by omega) h.sec).1]
  rfl

/-- **What a text of digits decodes to**. -/
theorem timeFromIso_of_digits {isoStr : ByteString} (h : DigitFields isoStr) :
    (¬ ((isoNumbers isoStr).NamesDate ∧ (isoNumbers isoStr).NamesTime) → timeFromIso isoStr = 0) ∧
      ∀ d : Date, (isoNumbers isoStr).Names d → (isoNumbers isoStr).NamesTime →
        timeFromIso isoStr =
          d.dayNumber * 86400 + (isoNumbers isoStr).secondOfDay - isoOffset (isoStr.drop 19) := by
  have hlength := h.length
  have hlt := (stoi_substr (by decide) (by decide) (by omega) h.year).2
  rw [timeFromIso, if_neg (by omega), isoFields_of_digits h]
  constructor
  · intro hno
    have htrue : hasFieldOutOfRange (isoNumbers isoStr) = true := by
      rw [← hasFieldOutOfRange_iff, Bool.not_eq_false] at hno
      exact hno
    simp only [htrue, if_true]
  · intro d hnames htime
    have hfalse := hasFieldOutOfRange_iff.mpr ⟨hnames.namesDate, htime⟩
    have hyear := hnames.year
    simp only [isoNumbers] at hyear
    simp only [hfalse, Bool.false_eq_true, if_false,
      portableTimeGmSaturating_eq hnames (by omega) (by omega) htime]

/-! ## texts of dates and times of day -/

section Texts

variable {d : Date} {s : Int}

/-- A date of a year of four digits, in digits. -/
theorem dateText_civilFields (hd : Formattable d) :
    dateText (civilFields d s) = Decimal.fixed 4 d.year.toNat ++ [45] ++
      Decimal.fixed 2 d.month.toNat ++ [45] ++ Decimal.fixed 2 d.day.toNat := by
  obtain ⟨h1, h12, hpos, hle⟩ := d.isDate
  have hmonth := daysInMonth_bounds d.year d.month
  simp only [dateText, civilFields, Int.sub_add_cancel]
  obtain ⟨h0, h9999⟩ := hd
  rw [Decimal.zeroPadded_eq_fixed (by decide) h0 (by omega),
    Decimal.zeroPadded_eq_fixed (by decide) (by omega) (by omega),
    Decimal.zeroPadded_eq_fixed (by decide) (by omega) (by omega)]

theorem timeOfDayText_eq {hour min sec : Int} (hhour : 0 ≤ hour ∧ hour ≤ 23)
    (hmin : 0 ≤ min ∧ min ≤ 59) (hsec : 0 ≤ sec ∧ sec ≤ 59) :
    timeOfDayText hour min sec = Decimal.fixed 2 hour.toNat ++ [58] ++
      Decimal.fixed 2 min.toNat ++ [58] ++ Decimal.fixed 2 sec.toNat := by
  rw [timeOfDayText, Decimal.zeroPadded_eq_fixed (by decide) (by omega) (by omega),
    Decimal.zeroPadded_eq_fixed (by decide) (by omega) (by omega),
    Decimal.zeroPadded_eq_fixed (by decide) (by omega) (by omega)]

/-- The number of a field of two digits. -/
theorem value_fixed_two {n : Int} (h0 : 0 ≤ n) (h99 : n ≤ 99) :
    (Decimal.value (Decimal.fixed 2 n.toNat) : Int) = n := by
  rw [Decimal.value_fixed (by omega)]
  omega

/-- The text of a date and a time of day, whatever follows it, has digits in
its fields, and their numbers are those of the date and the time. -/
theorem dateTimeText_append (hd : Formattable d) (h0 : 0 ≤ s) (h1 : s < 86400) (rest : ByteString) :
    DigitFields (dateTimeText (civilFields d s) ++ rest) ∧
      isoNumbers (dateTimeText (civilFields d s) ++ rest) =
        { civilFields d s with tmWday := 0, tmYday := 0 } ∧
      (dateTimeText (civilFields d s) ++ rest).drop 19 = rest := by
  obtain ⟨hm1, hm12, hpos, hle⟩ := d.isDate
  have hmonth := daysInMonth_bounds d.year d.month
  have hhour : 0 ≤ s / 3600 ∧ s / 3600 ≤ 23 := by omega
  have hmin : 0 ≤ s / 60 % 60 ∧ s / 60 % 60 ≤ 59 := by omega
  have hsec : 0 ≤ s % 60 ∧ s % 60 ≤ 59 := by omega
  have hyear : (Decimal.value (Decimal.fixed 4 d.year.toNat) : Int) = d.year := by
    obtain ⟨hd0, hd9999⟩ := hd
    rw [Decimal.value_fixed (by omega)]
    omega
  rw [dateTimeText, dateText_civilFields hd]
  simp only [civilFields]
  rw [timeOfDayText_eq hhour hmin hsec]
  generalize htext : Decimal.fixed 4 d.year.toNat ++ [45] ++ Decimal.fixed 2 d.month.toNat ++ [45] ++
    Decimal.fixed 2 d.day.toNat ++ [84] ++ (Decimal.fixed 2 (s / 3600).toNat ++ [58] ++
    Decimal.fixed 2 (s / 60 % 60).toNat ++ [58] ++ Decimal.fixed 2 (s % 60).toNat) ++ rest = text
  have hyearField : substr text 0 4 = Decimal.fixed 4 d.year.toNat := by rw [← htext]; rfl
  have hmonField : substr text 5 2 = Decimal.fixed 2 d.month.toNat := by rw [← htext]; rfl
  have hmdayField : substr text 8 2 = Decimal.fixed 2 d.day.toNat := by rw [← htext]; rfl
  have hhourField : substr text 11 2 = Decimal.fixed 2 (s / 3600).toNat := by rw [← htext]; rfl
  have hminField : substr text 14 2 = Decimal.fixed 2 (s / 60 % 60).toNat := by rw [← htext]; rfl
  have hsecField : substr text 17 2 = Decimal.fixed 2 (s % 60).toNat := by rw [← htext]; rfl
  refine ⟨⟨?_, ?_, ?_, ?_, ?_, ?_, ?_⟩, ?_, by rw [← htext]; rfl⟩
  · rw [← htext]
    simp only [List.length_append, Decimal.length_fixed, List.length_singleton]
    omega
  · rw [hyearField, Decimal.all_isDigit_fixed]
  · rw [hmonField, Decimal.all_isDigit_fixed]
  · rw [hmdayField, Decimal.all_isDigit_fixed]
  · rw [hhourField, Decimal.all_isDigit_fixed]
  · rw [hminField, Decimal.all_isDigit_fixed]
  · rw [hsecField, Decimal.all_isDigit_fixed]
  · rw [isoNumbers, hyearField, hmonField, hmdayField, hhourField, hminField, hsecField, hyear,
      value_fixed_two (by omega) (by omega), value_fixed_two (by omega) (by omega),
      value_fixed_two hhour.1 (by omega), value_fixed_two hmin.1 (by omega),
      value_fixed_two hsec.1 (by omega)]

end Texts

/-! ## offsets -/

/-- `"HH:MM"`, or `"HHMM"`. -/
def offsetDigits (colon : Bool) (hours minutes : Nat) : ByteString :=
  Decimal.fixed 2 hours ++ (if colon then [58] else []) ++ Decimal.fixed 2 minutes

/-- The texts of a UTC offset in minutes. -/
inductive OffsetText : ByteString → Int → Prop
  | utc : OffsetText [90] 0
  | east (colon : Bool) {hours minutes : Nat} (hhours : hours ≤ 23) (hminutes : minutes ≤ 59) :
      OffsetText (43 :: offsetDigits colon hours minutes) (hours * 60 + minutes)
  | west (colon : Bool) {hours minutes : Nat} (hhours : hours ≤ 23) (hminutes : minutes ≤ 59) :
      OffsetText (45 :: offsetDigits colon hours minutes) (-(hours * 60 + minutes))

/-- The texts of a fraction of a second. -/
inductive FractionText : ByteString → Prop
  | none : FractionText []
  | digits {digits : ByteString} (hdigits : digits.all Decimal.isDigit = true) :
      FractionText (46 :: digits)

theorem readTwoDigits_fixed {n : Nat} (h : n ≤ 99) (rest : ByteString) :
    readTwoDigits (Decimal.fixed 2 n ++ rest) = some (n : Int) := by
  have htens := Decimal.isDigit_digit (show n / 10 % 10 < 10 by omega)
  have hones := Decimal.isDigit_digit (show n % 10 < 10 by omega)
  show (if Decimal.isDigit (Decimal.digit (n / 10 % 10)) && Decimal.isDigit (Decimal.digit (n % 10))
    then _ else _) = _
  rw [htens, hones, Bool.and_self, if_pos rfl, Decimal.toNat_digit (by omega),
    Decimal.toNat_digit (by omega)]
  congr 1
  omega

theorem readOffset_offsetDigits (colon : Bool) {hours minutes : Nat} (hhours : hours ≤ 23)
    (hminutes : minutes ≤ 59) :
    readOffset (offsetDigits colon hours minutes) = (hours * 60 + minutes) * 60 := by
  have hh : readTwoDigits (offsetDigits colon hours minutes) = some (hours : Int) := by
    rw [offsetDigits, List.append_assoc, readTwoDigits_fixed (by omega)]
  have hm := readTwoDigits_fixed (show minutes ≤ 99 by omega) []
  rw [List.append_nil] at hm
  have hminutesText : skipColon ((offsetDigits colon hours minutes).drop 2) =
      Decimal.fixed 2 minutes := by
    cases colon with
    | true => rfl
    | false =>
        show skipColon (Decimal.fixed 2 minutes) = _
        rw [skipColon.eq_def]
        split
        · next rest hcolon =>
            have hdigit := Decimal.all_isDigit_fixed 2 minutes
            rw [hcolon, List.all_cons] at hdigit
            exact absurd (Bool.and_eq_true_iff.mp hdigit).1 (by decide)
        · rfl
  simp only [readOffset, hh, hminutesText, hm]
  rw [if_pos ⟨by omega, by omega⟩]
  omega

/-- The offset of a rendering, in seconds. -/
theorem isoOffset_append {fraction suffix : ByteString} {offset : Int}
    (hfraction : FractionText fraction) (hsuffix : OffsetText suffix offset) :
    isoOffset (fraction ++ suffix) = offset * 60 := by
  have hskip : skipFraction (fraction ++ suffix) = suffix := by
    cases hfraction with
    | none => cases hsuffix <;> rfl
    | digits hdigits =>
        show (_ ++ suffix).dropWhile Decimal.isDigit = suffix
        rw [List.dropWhile_append_of_pos (List.all_eq_true.mp hdigits)]
        cases hsuffix <;> rfl
  rw [isoOffset, hskip]
  cases hsuffix with
  | utc => rfl
  | east colon hhours hminutes => exact readOffset_offsetDigits colon hhours hminutes
  | west colon hhours hminutes =>
      show -readOffset _ = _
      rw [readOffset_offsetDigits colon hhours hminutes]
      omega

/-! ## times of day -/

/-- Digits in their range are read up to what follows them. -/
theorem readBounded_fixed {maxField : Int} {n : Nat} (hmax : maxField ≤ 99) (hn : n ≤ maxField)
    (rest : ByteString) (hrest : ∀ b ∈ rest.head?, Decimal.isDigit b = false) :
    readBounded maxField 0 (Decimal.fixed 2 n ++ rest) = some ((n : Int), rest) := by
  have htens := Decimal.toNat_digit (show n / 10 % 10 < 10 by omega)
  have hones := Decimal.toNat_digit (show n % 10 < 10 by omega)
  have hstop : ∀ value, readBounded maxField value rest = some (value, rest) := by
    intro value
    cases rest with
    | nil => rfl
    | cons b rest =>
        have hb : ¬ Decimal.isDigit b = true := by simp [hrest b rfl]
        rw [readBounded, if_neg hb]
  show readBounded maxField 0
    (Decimal.digit (n / 10 % 10) :: Decimal.digit (n % 10) :: rest) = _
  rw [readBounded, if_pos (Decimal.isDigit_digit (by omega)), htens]
  simp only
  rw [if_neg (by omega), readBounded, if_pos (Decimal.isDigit_digit (by omega)), hones]
  simp only
  rw [if_neg (by omega), hstop]
  congr 2
  omega

theorem dropWhile_isSpace_fixed (n : Nat) (rest : ByteString) :
    (Decimal.fixed 2 n ++ rest).dropWhile Decimal.isSpace = Decimal.fixed 2 n ++ rest := by
  show (Decimal.digit (n / 10 % 10) :: (Decimal.digit (n % 10) :: rest)).dropWhile _ = _
  rw [List.dropWhile_cons, Decimal.isSpace_of_isDigit (Decimal.isDigit_digit (by omega))]
  rfl

/-- A field in its range, before a colon or at the end. -/
theorem readTimeFields_fixed {maxField : Int} (maxFields : List Int) {n : Nat}
    (hmax : maxField ≤ 99) (hn : n ≤ maxField) (rest : ByteString) :
    readTimeFields (maxField :: maxFields) (Decimal.fixed 2 n ++ 58 :: rest) =
        (readTimeFields maxFields rest).map ((n : Int) :: ·) ∧
      readTimeFields (maxField :: maxFields) (Decimal.fixed 2 n) = some [(n : Int)] := by
  have hcolon := readBounded_fixed hmax hn (58 :: rest) (by
    intro b hb
    obtain rfl := Option.some.inj hb
    decide)
  have hend := readBounded_fixed hmax hn [] (by simp)
  have hspace := dropWhile_isSpace_fixed n []
  rw [List.append_nil] at hend hspace
  constructor
  · rw [readTimeFields]
    simp only [dropWhile_isSpace_fixed, hcolon]
    rw [if_neg (by
      rw [List.length_append, Decimal.length_fixed]
      omega)]
  · rw [readTimeFields]
    simp only [hspace, hend]
    rw [if_neg (by simp)]

/-- A time of day is read back from its text. -/
theorem secondsSinceMidnightFromString_timeOfDayText {hour min sec : Int}
    (hhour : 0 ≤ hour ∧ hour ≤ 23) (hmin : 0 ≤ min ∧ min ≤ 59) (hsec : 0 ≤ sec ∧ sec ≤ 59) :
    secondsSinceMidnightFromString (timeOfDayText hour min sec) = hour * 3600 + min * 60 + sec := by
  have hfields : readTimeFields [23, 59, 59] (timeOfDayText hour min sec) =
      some [hour, min, sec] := by
    rw [timeOfDayText_eq hhour hmin hsec]
    simp only [List.append_assoc, List.cons_append, List.nil_append]
    rw [(readTimeFields_fixed _ (by decide) (by omega) _).1,
      (readTimeFields_fixed _ (by decide) (by omega) _).1,
      (readTimeFields_fixed _ (by decide) (by omega) []).2]
    simp only [Option.map_some, Option.some.injEq, List.cons.injEq, and_true]
    omega
  simp only [secondsSinceMidnightFromString, hfields]
  rfl

/-- The text of a time of day is that of its hour, minute and second. -/
theorem timeOfDayString_eq (n : Int) :
    timeOfDayString n = timeOfDayText (n % 86400 / 3600) (n % 86400 / 60 % 60) (n % 86400 % 60) := by
  have hcorrected := TruncDiv.tmod_corrected (a := n) (m := 86400) (by decide)
  have hmod : (if n.tmod 86400 < 0 then n.tmod 86400 + 86400 else n.tmod 86400) = n % 86400 := by
    split at hcorrected
    · next hneg => rw [if_pos hneg, (Prod.mk.inj hcorrected).2]
    · next hneg => rw [if_neg hneg, (Prod.mk.inj hcorrected).2]
  have h0 : 0 ≤ n % 86400 := by omega
  simp only [timeOfDayString, hmod]
  rw [Int.tdiv_eq_ediv_of_nonneg h0, Int.tdiv_eq_ediv_of_nonneg h0,
    Int.tmod_eq_emod_of_nonneg (by omega), Int.tmod_eq_emod_of_nonneg h0]

theorem secondsSinceMidnightFromString_timeOfDayString (n : Int) :
    secondsSinceMidnightFromString (timeOfDayString n) = n % 86400 := by
  rw [timeOfDayString_eq, secondsSinceMidnightFromString_timeOfDayText (by omega) (by omega)
    (by omega)]
  omega

/-! ## dates -/

/-- What is formatted of an instant in a year of four digits. -/
theorem utcFieldsForFormatting_eq {d : Date} {s : Int} (hd : Formattable d) (h0 : 0 ≤ s)
    (h1 : s < 86400) : utcFieldsForFormatting (d.dayNumber * 86400 + s) = civilFields d s := by
  obtain ⟨hd0, hd9999⟩ := hd
  have hlow := (d.le_year_iff 0).mp hd0
  have hhigh := (d.le_year_iff 10000).not.mp (by omega)
  have hfirst : firstFormattedSecond = yearStart 0 * 86400 := by decide
  have hlast : lastFormattedSecond = yearStart 10000 * 86400 - 1 := by decide
  have hclamp : min (max (d.dayNumber * 86400 + s) firstFormattedSecond) lastFormattedSecond =
      d.dayNumber * 86400 + s := by
    rw [hfirst, hlast]
    omega
  rw [utcFieldsForFormatting, hclamp, gmTimeUtc, utcCivilFromSeconds_dayNumber d h0 h1, if_pos (by
    simp only [intLowest, intMax]
    omega)]
  rfl

/-- The midnight of a date is read back from its text. -/
theorem timeFromDateString_dateText {d : Date} (hd : Formattable d) (s : Int) :
    timeFromDateString (dateText (civilFields d s)) = d.dayNumber * 86400 := by
  obtain ⟨hm1, hm12, hpos, hle⟩ := d.isDate
  have hmonth := daysInMonth_bounds d.year d.month
  have hstoi : ∀ {k : Nat} {n : Int}, 0 < k → 0 ≤ n → n.toNat < 10 ^ k → n ≤ 9999 →
      Decimal.stoi (Decimal.fixed k n.toNat) = some n := by
    intro k n hk h0 h hmax
    rw [Decimal.stoi_fixed hk h (by omega), Int.toNat_of_nonneg h0]
  obtain ⟨hd0, hd9999⟩ := id hd
  rw [dateText_civilFields hd]
  generalize htext : Decimal.fixed 4 d.year.toNat ++ [45] ++ Decimal.fixed 2 d.month.toNat ++ [45] ++
    Decimal.fixed 2 d.day.toNat = text
  have hyearField : substr text 0 4 = Decimal.fixed 4 d.year.toNat := by rw [← htext]; rfl
  have hmonField : substr text 5 2 = Decimal.fixed 2 d.month.toNat := by rw [← htext]; rfl
  have hmdayField : substr text 8 2 = Decimal.fixed 2 d.day.toNat := by rw [← htext]; rfl
  have hlength : text.length = 10 := by
    rw [← htext]
    simp
  have hfields : dateFields text =
      some { tmYear := d.year - 1900, tmMon := d.month - 1, tmMday := d.day } := by
    rw [dateFields, hyearField, hmonField, hmdayField,
      hstoi (by decide) hd0 (by omega) hd9999, hstoi (by decide) (by omega) (by omega) (by omega),
      hstoi (by decide) (by omega) (by omega) (by omega)]
    rfl
  have hnames : Tm.Names { tmYear := d.year - 1900, tmMon := d.month - 1, tmMday := d.day } d :=
    ⟨by simp only; omega, by simp only [Int.sub_add_cancel], rfl⟩
  rw [timeFromDateString, if_neg (by omega), hfields]
  simp only [Tm.namesDate_iff.mpr hnames.namesDate, Bool.not_true, Bool.false_eq_true, if_false,
    portableTimeGmSaturating_eq hnames (by omega) hd9999 (by simp [Tm.NamesTime]), Tm.secondOfDay]
  omega

/-! ## the codecs -/

/-- `"YYYY-MM-DD"` of a date. -/
def dateString (d : Date) : ByteString := dateText (civilFields d 0)

/-- Midnight of a date, in UTC. -/
def midnight (d : Date) : Int := d.dayNumber * 86400

/-- **The codecs of the API are inverse to each other**: date-times, whatever
their offset and their fraction, dates and times of day; digits that name no
date or no time decode to 0, a second of 60 to the next minute's first. -/
theorem timeCodecs :
    (∀ (d : Date) (s : Int), Formattable d → 0 ≤ s → s < 86400 →
      timeFromIso (isoFromTime (midnight d + s)) = midnight d + s) ∧
    (∀ (t offset : Int) (d : Date) (s : Int) (fraction suffix : ByteString), Formattable d →
      0 ≤ s → s < 86400 → t + offset * 60 = midnight d + s → FractionText fraction →
      OffsetText suffix offset →
      timeFromIso (dateTimeText (civilFields d s) ++ fraction ++ suffix) = t) ∧
    (∀ isoStr : ByteString, DigitFields isoStr →
      ¬ ((isoNumbers isoStr).NamesDate ∧ (isoNumbers isoStr).NamesTime) →
      timeFromIso isoStr = 0) ∧
    (∀ isoStr : ByteString, DigitFields isoStr → ∀ d : Date, (isoNumbers isoStr).Names d →
      (isoNumbers isoStr).NamesTime → (isoNumbers isoStr).tmSec = 60 →
      timeFromIso isoStr = midnight d + (isoNumbers isoStr).tmHour * 3600 +
        ((isoNumbers isoStr).tmMin + 1) * 60 - isoOffset (isoStr.drop 19)) ∧
    (∀ d : Date, Formattable d → timeFromDateString (dateStringFromTime (midnight d)) = midnight d ∧
      timeFromDateString (dateString d) = midnight d ∧
      dateStringFromTime (timeFromDateString (dateString d)) = dateString d) ∧
    (∀ n : Int, 0 ≤ n → n < 86400 → secondsSinceMidnightFromString (timeOfDayString n) = n) ∧
    (∀ hour min sec : Int, 0 ≤ hour ∧ hour ≤ 23 → 0 ≤ min ∧ min ≤ 59 → 0 ≤ sec ∧ sec ≤ 59 →
      timeOfDayString (secondsSinceMidnightFromString (timeOfDayText hour min sec)) =
        timeOfDayText hour min sec) ∧
    ∀ n : Int, timeOfDayString n = timeOfDayString (n % 86400) := by
  have hrendering : ∀ (t offset : Int) (d : Date) (s : Int) (fraction suffix : ByteString),
      Formattable d → 0 ≤ s → s < 86400 → t + offset * 60 = midnight d + s →
      FractionText fraction → OffsetText suffix offset →
      timeFromIso (dateTimeText (civilFields d s) ++ fraction ++ suffix) = t := by
    intro t offset d s fraction suffix hd h0 h1 hlocal hfraction hsuffix
    rw [List.append_assoc]
    obtain ⟨hdigits, hnumbers, hdrop⟩ := dateTimeText_append hd h0 h1 (fraction ++ suffix)
    have hnames : (isoNumbers (dateTimeText (civilFields d s) ++ (fraction ++ suffix))).Names d := by
      rw [hnumbers]
      exact ⟨(Tm.names_civilFields d s).year, (Tm.names_civilFields d s).month, rfl⟩
    have htime : (isoNumbers (dateTimeText (civilFields d s) ++ (fraction ++ suffix))).NamesTime := by
      rw [hnumbers]
      simp only [Tm.NamesTime, civilFields]
      omega
    rw [(timeFromIso_of_digits hdigits).2 d hnames htime, hdrop, isoOffset_append hfraction hsuffix,
      hnumbers]
    simp only [civilFields, Tm.secondOfDay]
    simp only [midnight] at hlocal
    omega
  have hdates : ∀ d : Date, Formattable d → dateStringFromTime (midnight d) = dateString d := by
    intro d hd
    have hfields := utcFieldsForFormatting_eq hd (s := 0) (by decide) (by decide)
    rw [Int.add_zero] at hfields
    rw [dateStringFromTime, midnight, hfields, dateString]
  refine ⟨?_, hrendering, fun isoStr h => (timeFromIso_of_digits h).1, ?_, ?_, ?_, ?_, ?_⟩
  · intro d s hd h0 h1
    have hzero := hrendering (midnight d + s) 0 d s [] [90] hd h0 h1 (by omega) .none .utc
    rw [List.append_nil] at hzero
    rw [isoFromTime, midnight, utcFieldsForFormatting_eq hd h0 h1]
    exact hzero
  · intro isoStr h d hnames htime hsec
    rw [(timeFromIso_of_digits h).2 d hnames htime, Tm.secondOfDay, hsec, midnight]
    omega
  · intro d hd
    have hdate := timeFromDateString_dateText hd 0
    refine ⟨?_, hdate, ?_⟩
    · rw [hdates d hd]
      exact hdate
    · rw [dateString, hdate]
      exact hdates d hd
  · intro n h0 h1
    rw [secondsSinceMidnightFromString_timeOfDayString]
    omega
  · intro hour min sec hhour hmin hsec
    rw [secondsSinceMidnightFromString_timeOfDayText hhour hmin hsec, timeOfDayString_eq]
    congr 1 <;> omega
  · intro n
    rw [timeOfDayString_eq, timeOfDayString_eq, Int.emod_emod]

/-- A quarter past a second of an evening in India, whose date is not yet the
one in UTC. -/
theorem timeCodecs_india :
    timeFromIso (dateTimeText (civilFields ⟨2023, 11, 15, by decide⟩ 13400) ++ (46 :: [50, 53]) ++
      (43 :: offsetDigits true 5 30)) = 1700000000 :=
  timeCodecs.2.1 1700000000 330 ⟨2023, 11, 15, by decide⟩ 13400 _ _ (by unfold Formattable; decide)
    (by decide) (by decide) (by decide) (.digits (by decide)) (@OffsetText.east true 5 30
      (by decide) (by decide))

/-- Digits that name no time of day, and do not decode to 0. -/
theorem timeFromIso_second_sixty :
    ¬ ∀ isoStr : ByteString, DigitFields isoStr →
      ¬ ((isoNumbers isoStr).NamesDate ∧ (isoNumbers isoStr).NamesTime ∧
        (isoNumbers isoStr).tmSec ≤ 59) →
      timeFromIso isoStr = 0 := by
  intro h
  have hzero := h (ascii "2026-01-01T12:34:60Z")
    ⟨by decide, by decide, by decide, by decide, by decide, by decide, by decide⟩
    (fun hnames => absurd hnames.2.2 (by decide))
  exact absurd hzero (by decide +kernel)

end DispatcharrPvr
