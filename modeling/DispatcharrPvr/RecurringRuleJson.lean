import DispatcharrPvr.DateTimeFormat.RoundTrip
import DispatcharrPvr.RecordingParser
import DispatcharrPvr.RecurringRuleEdit.Exact
import DispatcharrPvr.UpdateTimer.Unchanged

/-!
# RecurringRuleJson

A recurring rule on the wire: what a save sends of it
(`BuildRecurringRuleUpdateBody`) and what is read of the one that is listed
(`ParseRecurringRuleJson`).  A rule that is reported with what was sent is the one
that was saved, and a save of it again sends nothing
(`recurring_rule_edit_reported`).

The JSON library's values of an integer and of a string are parameters.
-/

namespace DispatcharrPvr

open Gregorian Containers

/-! ## the body -/

/-- A document of the fields that are there. -/
def Json.ofFields (fields : List (String × Option Json)) : Json :=
  .object (fields.filterMap fun field => field.2.map (field.1, ·))

/-- The fields of `BuildRecurringRuleUpdateBody`. -/
def recurringRuleUpdateFields (number : Int → Json) (text : ByteString → Json)
    (patch : RecurringRuleEditPatch) : List (String × Option Json) :=
  [("channel", patch.channelId.map number),
    ("name", patch.name.map text),
    ("days_of_week", patch.daysOfWeek.map fun days => .array (days.map number)),
    ("start_time", patch.startTimeOfDaySeconds.map fun seconds => text (timeOfDayString seconds)),
    ("end_time", patch.endTimeOfDaySeconds.map fun seconds => text (timeOfDayString seconds)),
    ("start_date", patch.startDate.map fun date => text (dateStringFromTime date)),
    ("enabled", patch.enabled.map Json.boolean),
    ("end_date", patch.endDate.map fun date => text (dateStringFromTime date))]

/-- `BuildRecurringRuleUpdateBody`. -/
def buildRecurringRuleUpdateBody (number : Int → Json) (text : ByteString → Json)
    (patch : RecurringRuleEditPatch) : Json :=
  .ofFields (recurringRuleUpdateFields number text patch)

/-! ## the listed rule -/

/-- A day of a rule's list; nothing where it is none. -/
def recurringRuleDay : Json → Option Int
  | .numberUnsigned n => if n ≤ 6 then some n else none
  | .numberInteger n => if 0 ≤ n ∧ n ≤ 6 then some n else none
  | _ => none

/-- The loop of `ParseRecurringRuleJson`. -/
def recurringRuleDays : Json → List Int
  | .array days => days.filterMap recurringRuleDay
  | _ => []

/-- `ParseRecurringRuleJson`. -/
def parseRecurringRuleJson (item : Json) : RecurringRule where
  id := fieldOrInt item "id" 0
  channelId := fieldOrInt item "channel" 0
  name := fieldOrBytes item "name"
  enabled := fieldOrBool item "enabled" true
  startTimeOfDaySeconds := secondsSinceMidnightFromString (fieldOrBytes item "start_time")
  endTimeOfDaySeconds := secondsSinceMidnightFromString (fieldOrBytes item "end_time")
  startDate := timeFromDateString (fieldOrBytes item "start_date")
  endDate := timeFromDateString (fieldOrBytes item "end_date")
  daysOfWeek := recurringRuleDays (fieldRefOrNull item "days_of_week")

/-! ## what is asked of the JSON library and of the server -/

/-- An integer is written as one, a non-negative one as an unsigned one perhaps. -/
def WritesInteger (number : Int → Json) : Prop :=
  ∀ n, number n = .numberInteger n ∨ 0 ≤ n ∧ number n = .numberUnsigned n.toNat

/-- UTF-8 is written as its text. -/
def WritesText (text : ByteString → Json) : Prop :=
  ∀ bytes, Utf8.Valid bytes → ∃ s : String, text bytes = .string s ∧ Utf8.encode s.toList = bytes

/-- A rule that is reported with the fields that were sent, and the others as they
were. -/
structure ReportedWith (body before after : Json) : Prop where
  fields : ∀ key ≠ "days_of_week", after.at? key = (body.at? key).or (before.at? key)
  /-- The server keeps the days sorted and without repeats. -/
  days : ∀ d, d ∈ recurringRuleDays (fieldRefOrNull after "days_of_week") ↔
    d ∈ recurringRuleDays
      (((body.at? "days_of_week").or (before.at? "days_of_week")).getD .null)

/-- The same rule, its days in another order perhaps. -/
structure RecurringRule.SameAs (rule other : RecurringRule) : Prop where
  fields : rule = { other with daysOfWeek := rule.daysOfWeek }
  days : ∀ d, d ∈ rule.daysOfWeek ↔ d ∈ other.daysOfWeek

/-- The day of a date that is sent, within the years of four digits. -/
def sentDate (t : Int) : Int :=
  min (max t firstFormattedSecond) lastFormattedSecond / 86400 * 86400

/-- A patch as its body has it: times within a day, and the midnights of dates. -/
def RecurringRuleEditPatch.asSent (patch : RecurringRuleEditPatch) : RecurringRuleEditPatch :=
  { patch with
    startTimeOfDaySeconds := patch.startTimeOfDaySeconds.map (· % 86400)
    endTimeOfDaySeconds := patch.endTimeOfDaySeconds.map (· % 86400)
    startDate := patch.startDate.map sentDate
    endDate := patch.endDate.map sentDate }

/-- A patch that can be written: an `int`, UTF-8, and days of the week. -/
structure RecurringRuleEditPatch.Writable (patch : RecurringRuleEditPatch) : Prop where
  channelId : ∀ n ∈ patch.channelId, intLowest ≤ n ∧ n ≤ intMax
  name : ∀ name ∈ patch.name, Utf8.Valid name
  daysOfWeek : ∀ days ∈ patch.daysOfWeek, ∀ d ∈ days, 0 ≤ d ∧ d ≤ 6

/-! ## fields -/

/-- A field of a document is the one of its key. -/
theorem at?_ofFields {fields : List (String × Option Json)}
    (hdistinct : (fields.map Prod.fst).Nodup) (key : String) :
    (Json.ofFields fields).at? key = (fields.find? fun field => field.1 == key).bind Prod.snd := by
  show ((fields.filterMap fun field => field.2.map (field.1, ·)).find?
    fun field => field.1 == key).map (·.2) = _
  induction fields with
  | nil => rfl
  | cons field fields ih =>
      obtain ⟨name, value⟩ := field
      rw [List.map_cons, List.nodup_cons] at hdistinct
      have ih := ih hdistinct.2
      cases value with
      | some value =>
          by_cases hname : name = key
          · simp [hname]
          · simpa [hname] using ih
      | none =>
          by_cases hname : name = key
          · subst hname
            rw [List.filterMap_cons_none rfl, List.find?_cons_of_pos (by simp), ih]
            have hnone : fields.find? (fun field => field.1 == name) = none := by
              rw [List.find?_eq_none]
              intro field hmem heq
              rw [beq_iff_eq] at heq
              have hname : field.1 ∈ fields.map Prod.fst := List.mem_map_of_mem hmem
              rw [heq] at hname
              exact hdistinct.1 hname
            rw [hnone]
            rfl
          · simpa [hname] using ih

section Reads

variable {before after : Json} {key : String} {number : Int → Json} {text : ByteString → Json}

/-- An `int` is read as the one that was sent, if one was. -/
theorem fieldOrInt_reported (hnumber : WritesInteger number) {sent : Option Int}
    (hat : after.at? key = (sent.map number).or (before.at? key))
    (hint : ∀ n ∈ sent, intLowest ≤ n ∧ n ≤ intMax) (default : Int) :
    fieldOrInt after key default = sent.getD (fieldOrInt before key default) := by
  cases sent with
  | none =>
      rw [Option.map_none, Option.none_or] at hat
      simp only [fieldOrInt, hat, Option.getD_none]
  | some n =>
      rw [Option.map_some, Option.some_or] at hat
      obtain ⟨hlow, hhigh⟩ := hint n rfl
      unfold fieldOrInt
      rw [hat]
      rcases hnumber n with hvalue | ⟨h0, hvalue⟩
      · rw [hvalue]
        dsimp only
        rw [if_neg (by omega), Option.getD_some]
      · rw [hvalue]
        dsimp only
        rw [if_neg (by omega), Option.getD_some, Int.toNat_of_nonneg h0]

theorem fieldOrBool_reported {sent : Option Bool}
    (hat : after.at? key = (sent.map Json.boolean).or (before.at? key)) (default : Bool) :
    fieldOrBool after key default = sent.getD (fieldOrBool before key default) := by
  cases sent with
  | none =>
      rw [Option.map_none, Option.none_or] at hat
      simp only [fieldOrBool, hat, Option.getD_none]
  | some value =>
      rw [Option.map_some, Option.some_or] at hat
      simp only [fieldOrBool, hat, Option.getD_some]

/-- A string is read as the bytes that were sent. -/
theorem fieldOrBytes_reported {α : Type} (htext : WritesText text) {sent : Option α}
    {written : α → ByteString}
    (hat : after.at? key = (sent.map fun value => text (written value)).or (before.at? key))
    (hvalid : ∀ value ∈ sent, Utf8.Valid (written value)) :
    fieldOrBytes after key = (sent.map written).getD (fieldOrBytes before key) := by
  cases sent with
  | none =>
      rw [Option.map_none, Option.none_or] at hat
      simp only [fieldOrBytes, fieldOrString, hat, Option.map_none, Option.getD_none]
  | some value =>
      rw [Option.map_some, Option.some_or] at hat
      obtain ⟨s, hs, hbytes⟩ := htext _ (hvalid value rfl)
      rw [hs] at hat
      simp only [fieldOrBytes, fieldOrString, hat, Option.map_some, Option.getD_some, hbytes]

/-- The days of a week are read as they were sent. -/
theorem recurringRuleDays_numbers (hnumber : WritesInteger number) {days : List Int}
    (hdays : ∀ d ∈ days, 0 ≤ d ∧ d ≤ 6) : recurringRuleDays (.array (days.map number)) = days := by
  show (days.map number).filterMap recurringRuleDay = days
  induction days with
  | nil => rfl
  | cons d days ih =>
      have hd := hdays d List.mem_cons_self
      have hday : recurringRuleDay (number d) = some d := by
        rcases hnumber d with hvalue | ⟨h0, hvalue⟩
        · rw [hvalue]
          exact if_pos hd
        · rw [hvalue]
          have hle : d.toNat ≤ 6 := by omega
          rw [recurringRuleDay, if_pos hle, Int.toNat_of_nonneg h0]
      rw [List.map_cons, List.filterMap_cons_some hday,
        ih fun d' hmem => hdays d' (List.mem_cons_of_mem d hmem)]

end Reads

/-! ## texts of dates and times of day -/

/-- ASCII is UTF-8. -/
theorem valid_of_ascii {bytes : ByteString} (h : ∀ b ∈ bytes, b < 0x80) : Utf8.Valid bytes := by
  have hbyte : ∀ b : UInt8, b < 0x80 → (Char.ofNat b.toNat).val < 0x80 ∧
      (Char.ofNat b.toNat).toNat.toUInt8 = b := by
    have hall : ∀ b : BitVec 8, UInt8.ofBitVec b < 0x80 →
        (Char.ofNat (UInt8.ofBitVec b).toNat).val < 0x80 ∧
          (Char.ofNat (UInt8.ofBitVec b).toNat).toNat.toUInt8 = UInt8.ofBitVec b := by decide
    exact fun b => hall b.toBitVec
  refine ⟨bytes.map fun b => Char.ofNat b.toNat, ?_⟩
  rw [Utf8.encode_of_ascii, List.map_map]
  · conv_lhs => rw [← List.map_id bytes]
    exact List.map_congr_left fun b hmem => ((hbyte b (h b hmem)).2).symm
  · intro c hmem
    obtain ⟨b, hb, rfl⟩ := List.mem_map.mp hmem
    exact (hbyte b (h b hb)).1

/-- Digits are ASCII. -/
theorem fixed_ascii {k n : Nat} {b : UInt8} (hmem : b ∈ Decimal.fixed k n) : b < 0x80 := by
  have hdigit := Decimal.isDigit_iff.mp (List.all_eq_true.mp (Decimal.all_isDigit_fixed k n) b hmem)
  rw [UInt8.lt_iff_toNat_lt]
  exact Nat.lt_of_le_of_lt hdigit.2 (by decide)

theorem valid_timeOfDayString (n : Int) : Utf8.Valid (timeOfDayString n) := by
  rw [timeOfDayString_eq, timeOfDayText_eq (by omega) (by omega) (by omega)]
  refine valid_of_ascii fun b hmem => ?_
  simp only [List.mem_append, List.mem_singleton] at hmem
  rcases hmem with (((hmem | rfl) | hmem) | rfl) | hmem
  · exact fixed_ascii hmem
  · decide
  · exact fixed_ascii hmem
  · decide
  · exact fixed_ascii hmem

/-- What is written of a date is a date of a year of four digits, the sent one. -/
theorem dateStringFromTime_eq (t : Int) : ∃ (d : Date) (s : Int), Formattable d ∧
    dateStringFromTime t = dateText (civilFields d s) ∧ sentDate t = d.dayNumber * 86400 := by
  have hfirst : firstFormattedSecond = yearStart 0 * 86400 := by decide
  have hlast : lastFormattedSecond = yearStart 10000 * 86400 - 1 := by decide
  have hyears : yearStart 0 * 86400 ≤ yearStart 10000 * 86400 - 1 := by decide
  obtain ⟨d, s, ⟨h0, h1⟩, hclamp⟩ :=
    exists_date_second (min (max t firstFormattedSecond) lastFormattedSecond)
  have hlow := d.le_year_iff 0
  have hhigh := d.le_year_iff 10000
  have hd : Formattable d := by
    rw [hfirst, hlast] at hclamp
    exact ⟨hlow.mpr (by omega), Int.lt_add_one_iff.mp (Int.not_le.mp (hhigh.not.mpr (by omega)))⟩
  have hsame : utcFieldsForFormatting t = utcFieldsForFormatting (d.dayNumber * 86400 + s) := by
    rw [← hclamp, hfirst, hlast, utcFieldsForFormatting, utcFieldsForFormatting, hfirst, hlast]
    congr 1
    omega
  refine ⟨d, s, hd, ?_, ?_⟩
  · rw [dateStringFromTime, hsame, utcFieldsForFormatting_eq hd h0 h1]
  · rw [sentDate, hclamp]
    omega

theorem timeFromDateString_dateStringFromTime (t : Int) :
    timeFromDateString (dateStringFromTime t) = sentDate t := by
  obtain ⟨d, s, hd, htext, hsent⟩ := dateStringFromTime_eq t
  rw [htext, timeFromDateString_dateText hd, hsent]

theorem valid_dateStringFromTime (t : Int) : Utf8.Valid (dateStringFromTime t) := by
  obtain ⟨d, s, hd, htext, -⟩ := dateStringFromTime_eq t
  rw [htext, dateText_civilFields hd]
  refine valid_of_ascii fun b hmem => ?_
  simp only [List.mem_append, List.mem_singleton] at hmem
  rcases hmem with (((hmem | rfl) | hmem) | rfl) | hmem
  · exact fixed_ascii hmem
  · decide
  · exact fixed_ascii hmem
  · decide
  · exact fixed_ascii hmem

/-! ## what is reported of a save -/

/-- A field is read as what was written or as it was. -/
theorem read_getD {α β γ : Type} {written : α → β} {read : β → γ} {sent : α → γ}
    (h : ∀ value, read (written value) = sent value) (value : Option α) (current : β) :
    read ((value.map written).getD current) = (value.map sent).getD (read current) := by
  cases value with
  | none => rfl
  | some value => exact h value

section Reported

variable {number : Int → Json} {text : ByteString → Json} {patch : RecurringRuleEditPatch}
  {before after : Json}

/-- Each field of a body. -/
theorem at?_buildRecurringRuleUpdateBody (key : String) :
    (buildRecurringRuleUpdateBody number text patch).at? key =
      ((recurringRuleUpdateFields number text patch).find? fun field => field.1 == key).bind
        Prod.snd := by
  have hdistinct : ((recurringRuleUpdateFields number text patch).map Prod.fst).Nodup := by
    show ["channel", "name", "days_of_week", "start_time", "end_time", "start_date", "enabled",
      "end_date"].Nodup
    decide
  rw [buildRecurringRuleUpdateBody, at?_ofFields hdistinct]

/-- A field that is reported is the one of the body, if that has it. -/
theorem ReportedWith.at?
    (h : ReportedWith (buildRecurringRuleUpdateBody number text patch) before after) {key : String}
    (hkey : key ≠ "days_of_week") {value : Option Json}
    (hvalue : ((recurringRuleUpdateFields number text patch).find? fun field =>
      field.1 == key).bind Prod.snd = value) :
    after.at? key = value.or (before.at? key) := by
  rw [h.fields key hkey, at?_buildRecurringRuleUpdateBody, hvalue]

theorem timeOfDay_reported (htext : WritesText text) {key : String} {sent : Option Int}
    (hat : after.at? key =
      (sent.map fun seconds => text (timeOfDayString seconds)).or (before.at? key)) :
    secondsSinceMidnightFromString (fieldOrBytes after key) =
      (sent.map (· % 86400)).getD (secondsSinceMidnightFromString (fieldOrBytes before key)) := by
  rw [fieldOrBytes_reported htext hat fun seconds _ => valid_timeOfDayString seconds,
    read_getD secondsSinceMidnightFromString_timeOfDayString]

theorem date_reported (htext : WritesText text) {key : String} {sent : Option Int}
    (hat : after.at? key =
      (sent.map fun date => text (dateStringFromTime date)).or (before.at? key)) :
    timeFromDateString (fieldOrBytes after key) =
      (sent.map sentDate).getD (timeFromDateString (fieldOrBytes before key)) := by
  rw [fieldOrBytes_reported htext hat fun date _ => valid_dateStringFromTime date,
    read_getD timeFromDateString_dateStringFromTime]

/-- **What is reported of a PATCH** is the patch, as it was sent. -/
theorem parseRecurringRuleJson_reported (hnumber : WritesInteger number) (htext : WritesText text)
    (hwritable : patch.Writable)
    (h : ReportedWith (buildRecurringRuleUpdateBody number text patch) before after) :
    (parseRecurringRuleJson after).SameAs (patch.asSent.apply (parseRecurringRuleJson before)) := by
  have hid : after.at? "id" = before.at? "id" := h.at? (by decide) rfl
  have hchannel : fieldOrInt after "channel" 0 =
      patch.channelId.getD (fieldOrInt before "channel" 0) :=
    fieldOrInt_reported hnumber (h.at? (by decide) rfl) hwritable.channelId 0
  have hname : fieldOrBytes after "name" = (patch.name.map id).getD (fieldOrBytes before "name") :=
    fieldOrBytes_reported htext (h.at? (by decide) rfl) hwritable.name
  have henabled : fieldOrBool after "enabled" true =
      patch.enabled.getD (fieldOrBool before "enabled" true) :=
    fieldOrBool_reported (h.at? (by decide) rfl) true
  have hstart : secondsSinceMidnightFromString (fieldOrBytes after "start_time") =
      (patch.startTimeOfDaySeconds.map (· % 86400)).getD
        (secondsSinceMidnightFromString (fieldOrBytes before "start_time")) :=
    timeOfDay_reported htext (h.at? (by decide) rfl)
  have hend : secondsSinceMidnightFromString (fieldOrBytes after "end_time") =
      (patch.endTimeOfDaySeconds.map (· % 86400)).getD
        (secondsSinceMidnightFromString (fieldOrBytes before "end_time")) :=
    timeOfDay_reported htext (h.at? (by decide) rfl)
  have hstartDate : timeFromDateString (fieldOrBytes after "start_date") =
      (patch.startDate.map sentDate).getD (timeFromDateString (fieldOrBytes before "start_date")) :=
    date_reported htext (h.at? (by decide) rfl)
  have hendDate : timeFromDateString (fieldOrBytes after "end_date") =
      (patch.endDate.map sentDate).getD (timeFromDateString (fieldOrBytes before "end_date")) :=
    date_reported htext (h.at? (by decide) rfl)
  have hdays : ∀ d, d ∈ recurringRuleDays (fieldRefOrNull after "days_of_week") ↔
      d ∈ patch.daysOfWeek.getD (recurringRuleDays (fieldRefOrNull before "days_of_week")) := by
    intro d
    have hat : (buildRecurringRuleUpdateBody number text patch).at? "days_of_week" =
        patch.daysOfWeek.map fun days => .array (days.map number) := by
      rw [at?_buildRecurringRuleUpdateBody]
      simp [recurringRuleUpdateFields]
    rw [h.days, hat]
    cases hsent : patch.daysOfWeek with
    | none => rfl
    | some days =>
        rw [Option.map_some, Option.some_or, Option.getD_some,
          recurringRuleDays_numbers hnumber (hwritable.daysOfWeek days hsent)]
        rfl
  refine ⟨?_, hdays⟩
  rw [parseRecurringRuleJson, hchannel, hname, henabled, hstart, hend, hstartDate, hendDate]
  simp only [RecurringRuleEditPatch.apply, RecurringRuleEditPatch.asSent, parseRecurringRuleJson,
    fieldOrInt, hid, Option.map_id, id]

end Reported

/-! ## a save of the same -/

/-- What a save can write: an `int`, UTF-8, days of the week, and the midnight of a
date of a year of four digits. -/
structure RecurringRuleFields.Writable (fields : RecurringRuleFields) : Prop where
  channelId : intLowest ≤ fields.channelId ∧ fields.channelId ≤ intMax
  name : Utf8.Valid fields.name
  daysOfWeek : ∀ d ∈ fields.daysOfWeek, 0 ≤ d ∧ d ≤ 6
  startDate : ∃ d : Date, Formattable d ∧ fields.startDate = midnight d

/-- Such a date is sent as it is. -/
theorem sentDate_midnight {d : Date} (hd : Formattable d) : sentDate (midnight d) = midnight d := by
  have hlow := (d.le_year_iff 0).mp hd.1
  have hhigh := (d.le_year_iff 10000).not.mp (Int.not_le.mpr (Int.lt_add_one_iff.mpr hd.2))
  have hfirst : firstFormattedSecond = yearStart 0 * 86400 := by decide
  have hlast : lastFormattedSecond = yearStart 10000 * 86400 - 1 := by decide
  rw [sentDate, hfirst, hlast, midnight]
  omega

/-- A field that is sent when it differs is the same afterwards. -/
theorem same_after {α : Type} {same : α → α → Bool} {edited current : α} {sent : α → α}
    (hsent : same edited (sent edited) = true) :
    same edited (((if !same edited current then some edited else none).map sent).getD current) =
      true := by
  cases hsame : same edited current with
  | true => simpa using hsame
  | false => simpa using hsent

section Save

variable {edited : RecurringRuleFields} {rule : RecurringRule}

/-- The difference that a save sends can be written. -/
theorem RecurringRuleFields.Writable.patch (h : edited.Writable) :
    (computeRecurringRuleEditPatch (some (editableFieldsOf rule)) edited).Writable where
  channelId n hn := by
    obtain ⟨-, heq⟩ := Option.ite_none_right_eq_some.mp hn
    obtain rfl := Option.some.inj heq
    exact h.channelId
  name name hname := by
    obtain ⟨-, heq⟩ := Option.ite_none_right_eq_some.mp hname
    obtain rfl := Option.some.inj heq
    exact h.name
  daysOfWeek days hdays := by
    obtain ⟨-, heq⟩ := Option.ite_none_right_eq_some.mp hdays
    obtain rfl := Option.some.inj heq
    exact h.daysOfWeek

/-- Once it is there as it was sent, nothing differs. -/
theorem isEmpty_after_save (h : edited.Writable) {saved : RecurringRule}
    (hsaved : saved.SameAs ((computeRecurringRuleEditPatch (some (editableFieldsOf rule))
      edited).asSent.apply rule)) :
    (computeRecurringRuleEditPatch (some (editableFieldsOf saved)) edited).isEmpty = true := by
  obtain ⟨d, hd, hdate⟩ := h.startDate
  have htime : ∀ t : Int, sameTimeOfDay t (t % 86400) = true := fun t =>
    (sameTimeOfDay_iff _ _).mpr (by omega)
  have hday : sameCalendarDay edited.startDate (sentDate edited.startDate) = true := by
    rw [hdate, sentDate_midnight hd]
    exact RecurringUpdate.sameCalendarDay_self _
  rw [RecurringUpdate.isEmpty_computeRecurringRuleEditPatch_iff, hsaved.fields]
  refine ⟨?_, ?_, fun d => ?_, same_after (htime _), same_after (htime _), same_after hday, ?_⟩
  · show edited.channelId = Option.getD (if edited.channelId ≠ rule.channelId then _ else _) _
    split
    · rfl
    · next hsame => exact not_not.mp hsame
  · show edited.name = Option.getD (if edited.name ≠ rule.name then _ else _) _
    split
    · rfl
    · next hsame => exact not_not.mp hsame
  · refine Iff.trans ?_ (hsaved.days d).symm
    show d ∈ edited.daysOfWeek ↔ d ∈ Option.getD
      (if sortUnique edited.daysOfWeek ≠ sortUnique rule.daysOfWeek then _ else _) _
    split
    · rfl
    · next hsame => exact sortUnique_eq_iff.mp (not_not.mp hsame) d
  · show edited.enabled = Option.getD (if edited.enabled ≠ rule.enabled then _ else _) _
    split
    · rfl
    · next hsame => exact not_not.mp hsame

end Save

/-- **A save of a recurring rule is reported as it was made**: of any patch, the
rule that is listed with what was sent is the one before with the patch applied,
its times within a day and its dates at their midnight; and of what a save of
Kodi's fields sends, so that the same save again finds no difference. -/
theorem recurring_rule_edit_reported {number : Int → Json} {text : ByteString → Json}
    (hnumber : WritesInteger number) (htext : WritesText text) (before after : Json) :
    (∀ patch : RecurringRuleEditPatch, patch.Writable →
      ReportedWith (buildRecurringRuleUpdateBody number text patch) before after →
      (parseRecurringRuleJson after).SameAs
        (patch.asSent.apply (parseRecurringRuleJson before))) ∧
    ∀ edited : RecurringRuleFields, edited.Writable →
      ReportedWith (buildRecurringRuleUpdateBody number text (computeRecurringRuleEditPatch
        (some (editableFieldsOf (parseRecurringRuleJson before))) edited)) before after →
      (computeRecurringRuleEditPatch (some (editableFieldsOf (parseRecurringRuleJson after)))
        edited).isEmpty = true :=
  ⟨fun _ hwritable h => parseRecurringRuleJson_reported hnumber htext hwritable h,
    fun _ hwritable h => isEmpty_after_save hwritable
      (parseRecurringRuleJson_reported hnumber htext hwritable.patch h)⟩

/-! ## the news at another channel -/

/-- The library's strings. -/
def utf8Text (bytes : ByteString) : Json :=
  match bytes.toByteArray.utf8Decode? with
  | some chars => .string (String.ofList chars.toList)
  | none => .null

theorem writesText_utf8 : WritesText utf8Text := by
  rintro _ ⟨chars, rfl⟩
  have hdecode : (Utf8.encode chars).toByteArray.utf8Decode? = some chars.toArray :=
    List.utf8Decode?_utf8Encode
  refine ⟨String.ofList chars, ?_, by rw [String.toList_ofList]⟩
  rw [utf8Text, hdecode]

/-- A rule as it is listed. -/
def newsFields : List (String × Json) :=
  [("id", .numberUnsigned 3), ("channel", .numberUnsigned 5), ("name", .string "News"),
    ("days_of_week", .array [.numberUnsigned 0, .numberUnsigned 2]),
    ("start_time", .string "20:00:00"), ("end_time", .string "21:00:00"),
    ("start_date", .string "2026-01-05"), ("end_date", .null), ("enabled", .boolean true)]

/-- What is saved of it. -/
def savedNews : RecurringRuleFields where
  channelId := 7
  name := ascii "News"
  daysOfWeek := [2, 0]
  startTimeOfDaySeconds := 75600
  endTimeOfDaySeconds := 75600
  startDate := midnight ⟨2026, 1, 5, by decide⟩

/-- What is sent. -/
def newsPatch : RecurringRuleEditPatch :=
  computeRecurringRuleEditPatch
    (some (editableFieldsOf (parseRecurringRuleJson (.object newsFields)))) savedNews

/-- How the rule is listed then, its days sorted. -/
def newsAfter : Json :=
  .object (("days_of_week", .array [.numberUnsigned 0, .numberUnsigned 2]) ::
    (recurringRuleUpdateFields .numberInteger utf8Text newsPatch).filterMap
      (fun field => field.2.map (field.1, ·)) ++ newsFields)

theorem recurring_rule_edit_reported_news :
    (parseRecurringRuleJson newsAfter).SameAs
        (newsPatch.asSent.apply (parseRecurringRuleJson (.object newsFields))) ∧
      (computeRecurringRuleEditPatch (some (editableFieldsOf (parseRecurringRuleJson newsAfter)))
        savedNews).isEmpty = true := by
  have hwritable : savedNews.Writable :=
    { channelId := by decide
      name := ⟨"News".toList, by decide⟩
      daysOfWeek := by decide
      startDate := ⟨⟨2026, 1, 5, by decide⟩, by unfold Formattable; decide, rfl⟩ }
  have hreported : ReportedWith (buildRecurringRuleUpdateBody .numberInteger utf8Text newsPatch)
      (.object newsFields) newsAfter :=
    { fields := fun key hkey => by
        have hother : ¬ ("days_of_week" == key) = true := by
          rw [beq_iff_eq]
          exact hkey.symm
        simp only [buildRecurringRuleUpdateBody, Json.ofFields, newsAfter, Json.at?,
          List.cons_append]
        rw [List.find?_cons_of_neg (by exact hother), List.find?_append, Option.map_or]
      days := fun d => by rfl }
  obtain ⟨hparsed, hsettled⟩ := recurring_rule_edit_reported (fun n => .inl rfl) writesText_utf8
    (.object newsFields) newsAfter
  exact ⟨hparsed newsPatch hwritable.patch hreported, hsettled savedNews hwritable hreported⟩

end DispatcharrPvr
