import DispatcharrPvr.DateTimeFormat.RoundTrip

/-!
# XmlTvParser

The times of an XMLTV guide (`ParseXmlTvTime` of `XmlTvParser.cpp`): fourteen
digits and an offset.

`std::stoi` reads more than digits: whitespace and a sign before them, and it
stops at the first other byte.  `parseXmlTvTime_eq_iff` says which texts the
function therefore takes for a time, or for an offset, that are none.
-/

namespace DispatcharrPvr

open Gregorian

/-- The fields at their positions; nothing where `std::stoi` throws. -/
def xmlTvFields (timeStr : ByteString) : Option Tm := do
  let year ← Decimal.stoi (substr timeStr 0 4)
  let mon ← Decimal.stoi (substr timeStr 4 2)
  let mday ← Decimal.stoi (substr timeStr 6 2)
  let hour ← Decimal.stoi (substr timeStr 8 2)
  let min ← Decimal.stoi (substr timeStr 10 2)
  let sec ← Decimal.stoi (substr timeStr 12 2)
  return { tmYear := year - 1900, tmMon := mon - 1, tmMday := mday, tmHour := hour, tmMin := min,
           tmSec := sec }

/-- The seconds of the hours and minutes behind a sign; nothing where
`std::stoi` throws or they are no offset. -/
def xmlTvHoursMinutes (offsetStr : ByteString) : Option Int := do
  let offsetHours ← Decimal.stoi (substr offsetStr 1 2)
  let offsetMinutes ← Decimal.stoi (substr offsetStr 3 2)
  if 0 ≤ offsetHours ∧ offsetHours ≤ 23 ∧ 0 ≤ offsetMinutes ∧ offsetMinutes ≤ 59 then
    return offsetHours * 3600 + offsetMinutes * 60
  else none

/-- The seconds of the offset behind the stamp, 0 where it is malformed. -/
def xmlTvOffset (text : ByteString) : Int :=
  let offsetStr := text.dropWhile (· == 32)
  if 5 ≤ offsetStr.length ∧ (offsetStr.head? = some 43 ∨ offsetStr.head? = some 45) then
    let sign := if offsetStr.head? = some 45 then -1 else 1
    sign * (xmlTvHoursMinutes offsetStr).getD 0
  else 0

/-- `ParseXmlTvTime`. -/
def parseXmlTvTime (timeStr : ByteString) : Int :=
  if timeStr.length < 14 then 0
  else
    match xmlTvFields timeStr with
    | none => 0
    | some tmVal =>
        if hasFieldOutOfRange tmVal then 0
        else portableTimeGmSaturating tmVal - xmlTvOffset (timeStr.drop 14)

/-! ## what a text stands for -/

/-- The text begins with a stamp of fourteen digits. -/
def HasStamp (timeStr : ByteString) : Prop :=
  14 ≤ timeStr.length ∧ (timeStr.take 14).all Decimal.isDigit = true

instance (timeStr : ByteString) : Decidable (HasStamp timeStr) :=
  inferInstanceAs (Decidable (_ ∧ _))

instance (tmVal : Tm) : Decidable tmVal.NamesDate := inferInstanceAs (Decidable (IsDate _ _ _))

instance (tmVal : Tm) : Decidable tmVal.NamesTime := inferInstanceAs (Decidable (_ ∧ _))

/-- The numbers of a stamp. -/
def stampNumbers (timeStr : ByteString) : Tm where
  tmYear := Decimal.value (substr timeStr 0 4) - 1900
  tmMon := Decimal.value (substr timeStr 4 2) - 1
  tmMday := Decimal.value (substr timeStr 6 2)
  tmHour := Decimal.value (substr timeStr 8 2)
  tmMin := Decimal.value (substr timeStr 10 2)
  tmSec := Decimal.value (substr timeStr 12 2)

/-- The UTC instant of a date and a time of day. -/
def Tm.instant (tmVal : Tm) : Int :=
  (monthStart (1900 + tmVal.tmYear) (tmVal.tmMon + 1) + (tmVal.tmMday - 1)) * 86400 +
    tmVal.secondOfDay

/-- The hours and minutes of a well-formed offset, in seconds: a sign and four
digits of at most 23:59. -/
def wellFormedOffset : ByteString → Option Int
  | sign :: a :: b :: c :: d :: _ =>
      if (sign = 43 ∨ sign = 45) ∧ [a, b, c, d].all Decimal.isDigit ∧
          Decimal.value [a, b] ≤ 23 ∧ Decimal.value [c, d] ≤ 59 then
        let seconds : Int := Decimal.value [a, b] * 3600 + Decimal.value [c, d] * 60
        some (if sign = 45 then -seconds else seconds)
      else none
  | _ => none

/-- What the grammar makes of a text: the instant of a stamp that names a date
and a time of day, less the offset that follows after spaces, if it is well
formed; 0 for every other text. -/
def xmlTvMeaning (timeStr : ByteString) : Int :=
  if HasStamp timeStr ∧ (stampNumbers timeStr).NamesDate ∧ (stampNumbers timeStr).NamesTime then
    (stampNumbers timeStr).instant -
      (wellFormedOffset ((timeStr.drop 14).dropWhile (· == 32))).getD 0
  else 0

/-! ## where the function reads more -/

/-- The six fields of a text each begin with a number. -/
structure LooseFields (timeStr : ByteString) (tmVal : Tm) : Prop where
  year : Decimal.Begins (substr timeStr 0 4) (tmVal.tmYear + 1900)
  mon : Decimal.Begins (substr timeStr 4 2) (tmVal.tmMon + 1)
  mday : Decimal.Begins (substr timeStr 6 2) tmVal.tmMday
  hour : Decimal.Begins (substr timeStr 8 2) tmVal.tmHour
  min : Decimal.Begins (substr timeStr 10 2) tmVal.tmMin
  sec : Decimal.Begins (substr timeStr 12 2) tmVal.tmSec

/-- After spaces, a sign, an hour of at most 23 and a minute of at most 59, of two
characters that each begin with a number; of so many seconds. -/
def LooseOffset (text : ByteString) (seconds : Int) : Prop :=
  ∃ sign a b c d rest hours minutes,
    text.dropWhile (· == 32) = sign :: a :: b :: c :: d :: rest ∧ (sign = 43 ∨ sign = 45) ∧
    (Decimal.Begins [a, b] hours ∧ 0 ≤ hours ∧ hours ≤ 23) ∧
    (Decimal.Begins [c, d] minutes ∧ 0 ≤ minutes ∧ minutes ≤ 59) ∧
    seconds = (if sign = 45 then -1 else 1) * (hours * 3600 + minutes * 60)

/-- No stamp, but six fields that begin with the numbers of a date and a time of
day, of an instant that no offset behind them moves to the epoch. -/
def ReadsLooseStamp (timeStr : ByteString) : Prop :=
  14 ≤ timeStr.length ∧ ¬ HasStamp timeStr ∧ ∃ tmVal, LooseFields timeStr tmVal ∧
    tmVal.NamesDate ∧ tmVal.NamesTime ∧
    ¬ (LooseOffset (timeStr.drop 14) tmVal.instant ∨
      tmVal.instant = 0 ∧ ∀ seconds, ¬ LooseOffset (timeStr.drop 14) seconds)

/-- A stamp with a sign behind it and four characters that are not all digits but
begin with the numbers of an offset that is not zero. -/
def ReadsLooseOffset (timeStr : ByteString) : Prop :=
  HasStamp timeStr ∧ (stampNumbers timeStr).NamesDate ∧ (stampNumbers timeStr).NamesTime ∧
    ¬ (((timeStr.drop 14).dropWhile (· == 32)).drop 1 |>.take 4).all Decimal.isDigit = true ∧
    ∃ seconds, LooseOffset (timeStr.drop 14) seconds ∧ seconds ≠ 0

theorem Tm.NamesDate.names {tmVal : Tm} (h : tmVal.NamesDate) :
    tmVal.Names ⟨1900 + tmVal.tmYear, tmVal.tmMon + 1, tmVal.tmMday, h⟩ :=
  ⟨rfl, rfl, rfl⟩

/-- The year read from four bytes has four digits at most. -/
theorem year_of_xmlTvFields {timeStr : ByteString} {tmVal : Tm}
    (h : xmlTvFields timeStr = some tmVal) :
    -9999 ≤ 1900 + tmVal.tmYear ∧ 1900 + tmVal.tmYear ≤ 9999 := by
  simp only [xmlTvFields, Option.bind_eq_bind, Option.bind_eq_some_iff, Option.pure_def,
    Option.some.injEq] at h
  obtain ⟨year, hyear, -, -, -, -, -, -, -, -, -, -, rfl⟩ := h
  have hlt := Decimal.natAbs_stoi_lt hyear
  have hlength : (substr timeStr 0 4).length ≤ 4 := by
    rw [substr, List.length_take]
    omega
  have hpow : 10 ^ (substr timeStr 0 4).length ≤ 10 ^ 4 := Nat.pow_le_pow_right (by decide) hlength
  simp only
  omega

/-- The fields that `std::stoi` reads are the numbers that they begin with. -/
theorem exists_xmlTvFields_iff {timeStr : ByteString} {p : Tm → Prop}
    (hp : ∀ tmVal : Tm, p tmVal ↔ p { tmVal with tmWday := 0, tmYday := 0, tmIsdst := 0 }) :
    (∃ tmVal, xmlTvFields timeStr = some tmVal ∧ p tmVal) ↔
      ∃ tmVal, LooseFields timeStr tmVal ∧ p tmVal := by
  have hshort : ∀ {pos count : Nat} {n : Int}, count ≤ 4 →
      (Decimal.stoi (substr timeStr pos count) = some n ↔
        Decimal.Begins (substr timeStr pos count) n) := by
    intro pos count n hcount
    refine Decimal.stoi_eq_some_iff_of_short ?_
    rw [substr, List.length_take]
    omega
  simp only [xmlTvFields, Option.bind_eq_bind, Option.bind_eq_some_iff, Option.pure_def,
    Option.some.injEq]
  constructor
  · rintro ⟨_, ⟨year, hyear, mon, hmon, mday, hmday, hour, hhour, min, hmin, sec, hsec, rfl⟩, htm⟩
    refine ⟨_, ?_, htm⟩
    exact
      { year := (hshort (by decide)).mp (by simpa using hyear)
        mon := (hshort (by decide)).mp (by simpa using hmon)
        mday := (hshort (by decide)).mp hmday
        hour := (hshort (by decide)).mp hhour
        min := (hshort (by decide)).mp hmin
        sec := (hshort (by decide)).mp hsec }
  · rintro ⟨tmVal, h, htm⟩
    refine ⟨_, ⟨_, (hshort (by decide)).mpr h.year, _, (hshort (by decide)).mpr h.mon, _,
      (hshort (by decide)).mpr h.mday, _, (hshort (by decide)).mpr h.hour, _,
      (hshort (by decide)).mpr h.min, _, (hshort (by decide)).mpr h.sec, rfl⟩, ?_⟩
    have hyear : tmVal.tmYear + 1900 - 1900 = tmVal.tmYear := by omega
    have hmon : tmVal.tmMon + 1 - 1 = tmVal.tmMon := by omega
    rw [hyear, hmon]
    exact (hp tmVal).mp htm

/-- Fields that are read give their instant, less the offset that is read. -/
theorem parseXmlTvTime_of_fields {timeStr : ByteString} {tmVal : Tm} (hlength : 14 ≤ timeStr.length)
    (h : xmlTvFields timeStr = some tmVal) :
    parseXmlTvTime timeStr =
      if tmVal.NamesDate ∧ tmVal.NamesTime then tmVal.instant - xmlTvOffset (timeStr.drop 14)
      else 0 := by
  obtain ⟨hlow, hhigh⟩ := year_of_xmlTvFields h
  rw [parseXmlTvTime, if_neg (by omega), h]
  simp only
  by_cases hnames : tmVal.NamesDate ∧ tmVal.NamesTime
  · have hseconds := portableTimeGmSaturating_eq hnames.1.names hlow hhigh hnames.2
    rw [hasFieldOutOfRange_iff.mpr hnames, if_neg (by decide), if_pos hnames, hseconds]
    rfl
  · have htrue : hasFieldOutOfRange tmVal = true := by
      rw [← hasFieldOutOfRange_iff, Bool.not_eq_false] at hnames
      exact hnames
    rw [htrue, if_pos rfl, if_neg hnames]

/-- The bytes of a field are among those of the stamp. -/
theorem HasStamp.digits {timeStr : ByteString} (h : HasStamp timeStr) {pos count : Nat}
    (hle : pos + count ≤ 14) : (substr timeStr pos count).all Decimal.isDigit = true := by
  have hsub : substr timeStr pos count = substr (timeStr.take 14) pos count := by
    rw [substr, substr, List.drop_take, List.take_take, Nat.min_eq_left (by omega)]
  rw [hsub, substr, List.all_eq_true]
  intro b hb
  exact List.all_eq_true.mp h.2 b (List.mem_of_mem_drop (List.mem_of_mem_take hb))

/-- A stamp is read as its numbers. -/
theorem HasStamp.xmlTvFields {timeStr : ByteString} (h : HasStamp timeStr) :
    xmlTvFields timeStr = some (stampNumbers timeStr) := by
  have hlength := h.1
  rw [DispatcharrPvr.xmlTvFields,
    (stoi_substr (by decide) (by decide) (by omega) (h.digits (by decide))).1,
    (stoi_substr (by decide) (by decide) (by omega) (h.digits (by decide))).1,
    (stoi_substr (by decide) (by decide) (by omega) (h.digits (by decide))).1,
    (stoi_substr (by decide) (by decide) (by omega) (h.digits (by decide))).1,
    (stoi_substr (by decide) (by decide) (by omega) (h.digits (by decide))).1,
    (stoi_substr (by decide) (by decide) (by omega) (h.digits (by decide))).1]
  rfl

/-! ## offsets -/

/-- From digits `std::stoi` reads what they stand for. -/
theorem stoi_two_digits {a b : UInt8} (h : [a, b].all Decimal.isDigit = true) :
    Decimal.stoi [a, b] = some (Decimal.value [a, b] : Int) := by
  have hlt : Decimal.value [a, b] < 100 := Decimal.value_lt h
  exact Decimal.stoi_of_digits (List.cons_ne_nil _ _) h (by omega)

theorem xmlTvHoursMinutes_eq_some_iff {sign a b c d : UInt8} {rest : ByteString} {n : Int} :
    xmlTvHoursMinutes (sign :: a :: b :: c :: d :: rest) = some n ↔
      ∃ hours minutes, (Decimal.Begins [a, b] hours ∧ 0 ≤ hours ∧ hours ≤ 23) ∧
        (Decimal.Begins [c, d] minutes ∧ 0 ≤ minutes ∧ minutes ≤ 59) ∧
        n = hours * 3600 + minutes * 60 := by
  have hshort : ∀ {x y : UInt8} {n : Int}, Decimal.stoi [x, y] = some n ↔ Decimal.Begins [x, y] n :=
    Decimal.stoi_eq_some_iff_of_short (by simp)
  have hhours : substr (sign :: a :: b :: c :: d :: rest) 1 2 = [a, b] := rfl
  have hminutes : substr (sign :: a :: b :: c :: d :: rest) 3 2 = [c, d] := rfl
  simp only [xmlTvHoursMinutes, hhours, hminutes, Option.bind_eq_bind, Option.bind_eq_some_iff,
    Option.ite_none_right_eq_some, Option.pure_def, Option.some.injEq, hshort]
  constructor
  · rintro ⟨hours, hh, minutes, hm, ⟨h0, h23, m0, m59⟩, rfl⟩
    exact ⟨hours, minutes, ⟨hh, h0, h23⟩, ⟨hm, m0, m59⟩, rfl⟩
  · rintro ⟨hours, minutes, ⟨hh, h0, h23⟩, ⟨hm, m0, m59⟩, rfl⟩
    exact ⟨hours, hh, minutes, hm, ⟨h0, h23, m0, m59⟩, rfl⟩

/-- A loose offset is read. -/
theorem LooseOffset.xmlTvOffset {text : ByteString} {seconds : Int} (h : LooseOffset text seconds) :
    xmlTvOffset text = seconds := by
  obtain ⟨sign, a, b, c, d, rest, hours, minutes, htext, hsign, hhours, hminutes, rfl⟩ := h
  have hseconds : xmlTvHoursMinutes (sign :: a :: b :: c :: d :: rest) =
      some (hours * 3600 + minutes * 60) :=
    xmlTvHoursMinutes_eq_some_iff.mpr ⟨hours, minutes, hhours, hminutes, rfl⟩
  rw [DispatcharrPvr.xmlTvOffset, htext]
  simp only [List.length_cons, List.head?_cons, Option.some.injEq]
  rw [if_pos ⟨by omega, hsign⟩, hseconds, Option.getD_some]

/-- And nothing else is. -/
theorem looseOffset_of_ne_zero {text : ByteString} (h : xmlTvOffset text ≠ 0) :
    LooseOffset text (xmlTvOffset text) := by
  have hread := h
  rw [xmlTvOffset] at hread
  match htext : text.dropWhile (· == 32) with
  | [] | [_] | [_, _] | [_, _, _] | [_, _, _, _] => simp [htext] at hread
  | sign :: a :: b :: c :: d :: rest =>
      simp only [htext, List.length_cons, List.head?_cons, Option.some.injEq] at hread
      split at hread
      · next hlong =>
          cases hseconds : xmlTvHoursMinutes (sign :: a :: b :: c :: d :: rest) with
          | none => simp [hseconds] at hread
          | some n =>
              obtain ⟨hours, minutes, hhours, hminutes, rfl⟩ :=
                xmlTvHoursMinutes_eq_some_iff.mp hseconds
              have hloose : LooseOffset text
                  ((if sign = 45 then -1 else 1) * (hours * 3600 + minutes * 60)) :=
                ⟨sign, a, b, c, d, rest, hours, minutes, htext, hlong.2, hhours, hminutes, rfl⟩
              rw [hloose.xmlTvOffset]
              exact hloose
      · exact absurd rfl hread

/-- **Spec of the offset's part**: the loose offset, 0 where there is none. -/
theorem xmlTvOffset_eq_iff {text : ByteString} {n : Int} :
    xmlTvOffset text = n ↔ LooseOffset text n ∨ n = 0 ∧ ∀ seconds, ¬ LooseOffset text seconds := by
  constructor
  · rintro rfl
    by_cases hzero : xmlTvOffset text = 0
    · by_cases hloose : ∃ seconds, LooseOffset text seconds
      · obtain ⟨seconds, hloose⟩ := hloose
        rw [hloose.xmlTvOffset]
        exact .inl hloose
      · exact .inr ⟨hzero, not_exists.mp hloose⟩
    · exact .inl (looseOffset_of_ne_zero hzero)
  · rintro (hloose | ⟨rfl, hnone⟩)
    · exact hloose.xmlTvOffset
    · by_contra hne
      exact hnone _ (looseOffset_of_ne_zero hne)

/-- An offset in digits is read as the well-formed one. -/
theorem xmlTvOffset_of_digits {text : ByteString}
    (h : (((text.dropWhile (· == 32)).drop 1).take 4).all Decimal.isDigit = true) :
    xmlTvOffset text = (wellFormedOffset (text.dropWhile (· == 32))).getD 0 := by
  rw [xmlTvOffset]
  generalize text.dropWhile (· == 32) = offsetStr at h
  match offsetStr with
  | [] | [_] | [_, _] | [_, _, _] | [_, _, _, _] => simp [wellFormedOffset]
  | sign :: a :: b :: c :: d :: rest =>
      have hdigits : [a, b, c, d].all Decimal.isDigit = true := h
      have hab : [a, b].all Decimal.isDigit = true := by
        simp only [List.all_cons, Bool.and_eq_true] at hdigits ⊢
        exact ⟨hdigits.1, hdigits.2.1, rfl⟩
      have hcd : [c, d].all Decimal.isDigit = true := by
        simp only [List.all_cons, Bool.and_eq_true] at hdigits ⊢
        exact hdigits.2.2
      have hhours : substr (sign :: a :: b :: c :: d :: rest) 1 2 = [a, b] := rfl
      have hminutes : substr (sign :: a :: b :: c :: d :: rest) 3 2 = [c, d] := rfl
      simp only [List.length_cons, List.head?_cons, Option.some.injEq, wellFormedOffset]
      by_cases hsign : sign = 43 ∨ sign = 45
      · rw [if_pos ⟨by omega, hsign⟩, xmlTvHoursMinutes, hhours, hminutes, stoi_two_digits hab,
          stoi_two_digits hcd]
        simp only [hsign, hdigits, true_and, Option.bind_eq_bind, Option.bind_some]
        by_cases hrange : Decimal.value [a, b] ≤ 23 ∧ Decimal.value [c, d] ≤ 59
        · have hrange' : 0 ≤ (Decimal.value [a, b] : Int) ∧ (Decimal.value [a, b] : Int) ≤ 23 ∧
              0 ≤ (Decimal.value [c, d] : Int) ∧ (Decimal.value [c, d] : Int) ≤ 59 := by omega
          rw [if_pos hrange', if_pos hrange]
          rcases hsign with rfl | rfl <;> simp
        · have hrange' : ¬ (0 ≤ (Decimal.value [a, b] : Int) ∧ (Decimal.value [a, b] : Int) ≤ 23 ∧
              0 ≤ (Decimal.value [c, d] : Int) ∧ (Decimal.value [c, d] : Int) ≤ 59) := by omega
          rw [if_neg hrange', if_neg hrange]
          simp
      · rw [if_neg fun h => hsign h.2, if_neg fun h => hsign h.1]
        rfl

/-- Characters that are no digits are no well-formed offset. -/
theorem wellFormedOffset_of_not_digits {offsetStr : ByteString}
    (h : ¬ ((offsetStr.drop 1).take 4).all Decimal.isDigit = true) :
    wellFormedOffset offsetStr = none := by
  match offsetStr with
  | [] | [_] | [_, _] | [_, _, _] | [_, _, _, _] => rfl
  | sign :: a :: b :: c :: d :: rest => exact if_neg fun hformed => h hformed.2.1

/-- **Offsets**: what is read is what the grammar says, unless an offset that
is not zero is read from characters that are no digits. -/
theorem xmlTvOffset_eq_wellFormed_iff (text : ByteString) :
    xmlTvOffset text = (wellFormedOffset (text.dropWhile (· == 32))).getD 0 ↔
      ¬ (¬ (((text.dropWhile (· == 32)).drop 1).take 4).all Decimal.isDigit = true ∧
        ∃ seconds, LooseOffset text seconds ∧ seconds ≠ 0) := by
  by_cases hdigits : (((text.dropWhile (· == 32)).drop 1).take 4).all Decimal.isDigit = true
  · exact iff_of_true (xmlTvOffset_of_digits hdigits) fun h => h.1 hdigits
  · rw [wellFormedOffset_of_not_digits hdigits, Option.getD_none]
    constructor
    · rintro hzero ⟨-, seconds, hloose, hne⟩
      exact hne (hloose.xmlTvOffset.symm.trans hzero)
    · intro hno
      by_contra hne
      exact hno ⟨hdigits, _, looseOffset_of_ne_zero hne, hne⟩

/-! ## the stamps -/

/-- **What `ParseXmlTvTime` accepts**: it is what the grammar makes of a text,
unless it takes characters that are no digits for digits. -/
theorem parseXmlTvTime_eq_iff (timeStr : ByteString) :
    parseXmlTvTime timeStr = xmlTvMeaning timeStr ↔
      ¬ ReadsLooseStamp timeStr ∧ ¬ ReadsLooseOffset timeStr := by
  by_cases hstamp : HasStamp timeStr
  · have hloose : ¬ ReadsLooseStamp timeStr := fun h => h.2.1 hstamp
    rw [parseXmlTvTime_of_fields hstamp.1 hstamp.xmlTvFields, xmlTvMeaning, ReadsLooseOffset]
    by_cases hnames : (stampNumbers timeStr).NamesDate ∧ (stampNumbers timeStr).NamesTime
    · have hoffset := xmlTvOffset_eq_wellFormed_iff (timeStr.drop 14)
      rw [if_pos hnames, if_pos ⟨hstamp, hnames⟩]
      simp only [hloose, not_false_iff, true_and, hstamp, hnames.1, hnames.2]
      rw [← hoffset]
      omega
    · rw [if_neg hnames, if_neg fun h => hnames h.2]
      simp only [hloose, not_false_iff, true_and, true_iff]
      exact fun h => hnames ⟨h.2.1, h.2.2.1⟩
  · have hoffset : ¬ ReadsLooseOffset timeStr := fun h => hstamp h.1
    rw [xmlTvMeaning, if_neg fun h => hstamp h.1, ReadsLooseStamp,
      ← exists_xmlTvFields_iff fun tmVal => Iff.rfl]
    simp only [hoffset, not_false_iff, and_true, hstamp, true_and, ← xmlTvOffset_eq_iff]
    by_cases hlength : 14 ≤ timeStr.length
    · cases hfields : xmlTvFields timeStr with
      | none =>
          rw [parseXmlTvTime, if_neg (by omega), hfields]
          simp
      | some tmVal =>
          rw [parseXmlTvTime_of_fields hlength hfields]
          simp only [hlength, true_and, Option.some.injEq, exists_eq_left']
          by_cases hnames : tmVal.NamesDate ∧ tmVal.NamesTime
          · rw [if_pos hnames]
            simp only [hnames.1, hnames.2, true_and]
            omega
          · rw [if_neg hnames]
            simp only [true_iff]
            exact fun h => hnames ⟨h.1, h.2.1⟩
    · rw [parseXmlTvTime, if_pos (by omega)]
      simp [hlength]

/-- A stamp cut short, whose offset is read as its seconds. -/
theorem parseXmlTvTime_cut_short :
    ¬ ∀ timeStr : ByteString, parseXmlTvTime timeStr = xmlTvMeaning timeStr := fun h =>
  absurd (h (ascii "20260101120 +0530")) (by decide +kernel)

end DispatcharrPvr
