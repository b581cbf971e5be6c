import DispatcharrPvr.DateTimeFormat
import DispatcharrPvr.JsonFieldUtil
import DispatcharrPvr.Lib.Utf8
import DispatcharrPvr.ManagedRecurringRule

/-!
# RecordingParser

A recording as the server sends it (`ParseRecordingFields`): its window says
whether it is running or still to come, and a status in its custom properties
overrides the window.

The fields are read in the order of the source, one step for each part of
`custom_properties`; no step after the status touches the flags again.
-/

namespace DispatcharrPvr

/-! ## the record -/

/-- `ComskipInfo`. -/
structure ComskipInfo where
  present : Bool := false
  status : ByteString := []
  noCommercials : Bool := false
  cutMode : Bool := false
deriving DecidableEq, Repr

/-- `Recording`, with the fields beyond those that tie it to a rule and to the
clock. -/
structure ServerRecording extends Recording where
  id : Int := 0
  title : ByteString := []
  subtitle : ByteString := []
  description : ByteString := []
  durationSeconds : Int := 0
  channelId : Int := 0
  hlsDirStillPresent : Bool := false
  bytesWritten : Int := 0
  comskip : ComskipInfo := {}
  programStartTime : Int := 0
  programEndTime : Int := 0
  programTvgId : ByteString := []
  posterUrl : ByteString := []
  posterLogoId : Int := -1
  seasonNumber : Int := -1
  episodeNumber : Int := -1
deriving DecidableEq, Repr

/-! ## reading fields -/

/-- A string of the JSON library: its UTF-8. -/
def fieldOrBytes (item : Json) (key : String) : ByteString :=
  Utf8.encode (fieldOrString item key "").toList

/-- `FieldOr<bool>`; only a boolean converts to one. -/
def fieldOrBool (item : Json) (key : String) (defaultValue : Bool) : Bool :=
  match item.at? key with
  | some (.boolean value) => value
  | _ => defaultValue

/-- `FieldRefOrNull`. -/
def fieldRefOrNull (item : Json) (key : String) : Json := (item.at? key).getD .null

/-- `is_object`. -/
def Json.isObject : Json → Bool
  | .object _ => true
  | _ => false

/-- `is_number_integer`. -/
def Json.isNumberInteger : Json → Bool
  | .numberInteger _ => true
  | .numberUnsigned _ => true
  | _ => false

/-- `contains(key) && !item[key].is_null()`. -/
def Json.hasValue (item : Json) (key : String) : Bool :=
  match item.at? key with
  | none => false
  | some .null => false
  | some _ => true

/-- `IsRecordingResponseFor`. -/
def isRecordingResponseFor (item : Json) (expectedId : Int) : Bool :=
  item.isObject && (item.at? "id").any Json.isNumberInteger &&
    fieldOrInt item "id" 0 == expectedId && expectedId != 0

/-- `ClampedDurationSeconds`. -/
def clampedDurationSeconds (start stop : Int) : Int :=
  if stop ≤ start then 0
  else if stop - start > intMax then intMax
  else stop - start

/-- `SeriesOrEpisodeNumber`. -/
def seriesOrEpisodeNumber (item : Json) (key : String) : Int :=
  if (item.at? key).any Json.isNumberInteger then
    let value := fieldOrInt item key (-1)
    if value < 0 then -1 else value
  else -1

/-- `ParseComskipInfo`. -/
def parseComskipInfo (custom : Json) : ComskipInfo :=
  let comskip := fieldRefOrNull custom "comskip"
  if comskip.isObject then
    { present := true
      status := fieldOrBytes comskip "status"
      noCommercials := fieldOrBool comskip "skipped" false
      cutMode := comskip.hasValue "segments_kept" }
  else {}

/-! ## ParseRecordingFields -/

/-- The fields of the item itself. -/
def recordingWindow (item : Json) (now : Int) : ServerRecording :=
  let startTime := timeFromIso (fieldOrBytes item "start_time")
  let endTime := timeFromIso (fieldOrBytes item "end_time")
  { id := fieldOrInt item "id" 0
    channelId := fieldOrInt item "channel" (fieldOrInt item "channel_id" 0)
    startTime
    endTime
    durationSeconds := clampedDurationSeconds startTime endTime
    isInProgress := startTime > 0 ∧ startTime ≤ now ∧ now < endTime
    isUpcoming := startTime > now }

/-- `custom_properties.status` over the window. -/
def applyStatus (status : ByteString) (r : ServerRecording) : ServerRecording :=
  if status = ascii "recording" then { r with isInProgress := true, isUpcoming := false }
  else if status = ascii "scheduled" then { r with isUpcoming := true, isInProgress := false }
  else if status ≠ [] then { r with isInProgress := false, isUpcoming := false }
  else r

/-- The duration up to an earlier end, where it lies in the window. -/
def shortenTo (endedAt : Int) (r : ServerRecording) : ServerRecording :=
  if endedAt > r.startTime ∧ endedAt < r.endTime then
    { r with durationSeconds := clampedDurationSeconds r.startTime endedAt }
  else r

/-- `stopped_at` and `ended_at`. -/
def applyEarlyEnd (status : ByteString) (custom : Json) (r : ServerRecording) : ServerRecording :=
  if status = ascii "stopped" then shortenTo (timeFromIso (fieldOrBytes custom "stopped_at")) r
  else if status = ascii "interrupted" then
    shortenTo (timeFromIso (fieldOrBytes custom "ended_at")) r
  else r

/-- The programme snapshot. -/
def applyProgram (program : Json) (r : ServerRecording) : ServerRecording :=
  if program.isObject then
    { r with
      title := fieldOrBytes program "title"
      subtitle := fieldOrBytes program "sub_title"
      description := fieldOrBytes program "description"
      programStartTime := timeFromIso (fieldOrBytes program "start_time")
      programEndTime := timeFromIso (fieldOrBytes program "end_time")
      programTvgId := fieldOrBytes program "tvg_id" }
  else r

/-- A season or an episode, of the custom properties or else of the snapshot. -/
def numberOf (custom program : Json) (key : String) : Int :=
  let value := seriesOrEpisodeNumber custom key
  if value < 0 ∧ program.isObject then seriesOrEpisodeNumber program key else value

/-- The artwork and what the snapshot left empty. -/
def applyEnrichment (custom program : Json) (r : ServerRecording) : ServerRecording :=
  let posterUrl := fieldOrBytes custom "poster_url"
  let posterUrl :=
    if ascii "http://" <+: posterUrl ∨ ascii "https://" <+: posterUrl then posterUrl else []
  { r with
    seasonNumber := numberOf custom program "season"
    episodeNumber := numberOf custom program "episode"
    posterUrl
    posterLogoId := if posterUrl ≠ [] then fieldOrInt custom "poster_logo_id" (-1)
      else r.posterLogoId
    title := if r.title = [] then fieldOrBytes custom "title" else r.title
    subtitle := if r.subtitle = [] then fieldOrBytes custom "sub_title" else r.subtitle
    description := if r.description = [] then fieldOrBytes custom "description" else r.description }

/-- The rule the occurrence belongs to. -/
def applyRule (rule : Json) (r : ServerRecording) : ServerRecording :=
  if rule.isObject ∧ fieldOrBytes rule "type" = ascii "recurring" then
    { r with recurringRuleId := fieldOrInt rule "id" 0 }
  else r

/-- What `custom_properties` adds. -/
def applyCustomProperties (custom : Json) (r : ServerRecording) : ServerRecording :=
  let status := fieldOrBytes custom "status"
  let r := applyEarlyEnd status custom (applyStatus status r)
  let r := { r with
    hlsDirStillPresent := custom.hasValue "_hls_dir"
    bytesWritten := fieldOrInt64 custom "bytes_written" 0
    comskip := parseComskipInfo custom }
  let program := fieldRefOrNull custom "program"
  applyRule (fieldRefOrNull custom "rule") (applyEnrichment custom program (applyProgram program r))

/-- The title of an occurrence, without the marker of its rule. -/
def dropRuleMarker (r : ServerRecording) : ServerRecording :=
  if r.recurringRuleId ≠ 0 then { r with title := stripManagedRuleMarker r.title } else r

/-- `ParseRecordingFields`. -/
def parseRecordingFields (item : Json) (now : Int) : ServerRecording :=
  let r := recordingWindow item now
  let custom := fieldRefOrNull item "custom_properties"
  dropRuleMarker (if custom.isObject then applyCustomProperties custom r else r)

/-! ## what every parsed recording is like -/

/-- The flags exclude each other, and the duration is within the window. -/
structure ServerRecording.Sound (r : ServerRecording) : Prop where
  exclusive : ¬ (r.isInProgress = true ∧ r.isUpcoming = true)
  duration_nonneg : 0 ≤ r.durationSeconds
  duration_le : r.durationSeconds ≤ clampedDurationSeconds r.startTime r.endTime

theorem clampedDurationSeconds_nonneg (start stop : Int) :
    0 ≤ clampedDurationSeconds start stop := by
  unfold clampedDurationSeconds intMax
  split
  · exact Int.le_refl 0
  · split <;> omega

/-- A longer window lasts longer. -/
theorem clampedDurationSeconds_mono {start stop stop' : Int} (h : stop ≤ stop') :
    clampedDurationSeconds start stop ≤ clampedDurationSeconds start stop' := by
  unfold clampedDurationSeconds intMax
  split <;> split <;> (try split) <;> (try split) <;> omega

theorem sound_recordingWindow (item : Json) (now : Int) : (recordingWindow item now).Sound where
  exclusive := by
    simp only [recordingWindow, decide_eq_true_eq]
    omega
  duration_nonneg := clampedDurationSeconds_nonneg _ _
  duration_le := Int.le_refl _

namespace ServerRecording

variable {r : ServerRecording}

theorem Sound.applyStatus (h : r.Sound) (status : ByteString) :
    (applyStatus status r).Sound := by
  unfold DispatcharrPvr.applyStatus
  split
  · exact ⟨by simp, h.duration_nonneg, h.duration_le⟩
  · split
    · exact ⟨by simp, h.duration_nonneg, h.duration_le⟩
    · split
      · exact ⟨by simp, h.duration_nonneg, h.duration_le⟩
      · exact h

theorem Sound.shortenTo (h : r.Sound) (endedAt : Int) : (shortenTo endedAt r).Sound := by
  unfold DispatcharrPvr.shortenTo
  split
  · next hwithin =>
      exact ⟨h.exclusive, clampedDurationSeconds_nonneg _ _,
        clampedDurationSeconds_mono (Int.le_of_lt hwithin.2)⟩
  · exact h

theorem Sound.applyEarlyEnd (h : r.Sound) (status : ByteString) (custom : Json) :
    (applyEarlyEnd status custom r).Sound := by
  unfold DispatcharrPvr.applyEarlyEnd
  split
  · exact h.shortenTo _
  · split
    · exact h.shortenTo _
    · exact h

/-- A status touches neither the times nor the duration. -/
theorem sameTimes_applyStatus (status : ByteString) :
    (DispatcharrPvr.applyStatus status r).startTime = r.startTime ∧
      (DispatcharrPvr.applyStatus status r).endTime = r.endTime ∧
      (DispatcharrPvr.applyStatus status r).durationSeconds = r.durationSeconds := by
  unfold DispatcharrPvr.applyStatus
  split
  · exact ⟨rfl, rfl, rfl⟩
  · split
    · exact ⟨rfl, rfl, rfl⟩
    · split <;> exact ⟨rfl, rfl, rfl⟩

/-- An early end changes nothing but the duration. -/
theorem eq_of_applyEarlyEnd (status : ByteString) (custom : Json) :
    ∃ d, DispatcharrPvr.applyEarlyEnd status custom r = { r with durationSeconds := d } := by
  unfold DispatcharrPvr.applyEarlyEnd DispatcharrPvr.shortenTo
  split
  · split
    · exact ⟨_, rfl⟩
    · exact ⟨r.durationSeconds, rfl⟩
  · split
    · split
      · exact ⟨_, rfl⟩
      · exact ⟨r.durationSeconds, rfl⟩
    · exact ⟨r.durationSeconds, rfl⟩

theorem durationSeconds_shortenTo {endedAt : Int}
    (h : r.durationSeconds = clampedDurationSeconds r.startTime r.endTime) :
    (DispatcharrPvr.shortenTo endedAt r).durationSeconds =
      clampedDurationSeconds r.startTime
        (if r.startTime < endedAt ∧ endedAt < r.endTime then endedAt else r.endTime) := by
  unfold DispatcharrPvr.shortenTo
  split
  · rfl
  · exact h

/-- What a record's soundness rests on. -/
structure SameWindow (r r' : ServerRecording) : Prop where
  isInProgress : r'.isInProgress = r.isInProgress
  isUpcoming : r'.isUpcoming = r.isUpcoming
  startTime : r'.startTime = r.startTime
  endTime : r'.endTime = r.endTime
  durationSeconds : r'.durationSeconds = r.durationSeconds

theorem SameWindow.sound {r' : ServerRecording} (hsame : SameWindow r r') (h : r.Sound) :
    r'.Sound := by
  constructor
  · rw [hsame.isInProgress, hsame.isUpcoming]
    exact h.exclusive
  · rw [hsame.durationSeconds]
    exact h.duration_nonneg
  · rw [hsame.durationSeconds, hsame.startTime, hsame.endTime]
    exact h.duration_le

theorem SameWindow.trans {r' r'' : ServerRecording} (h : SameWindow r r')
    (h' : SameWindow r' r'') : SameWindow r r'' :=
  ⟨h'.1.trans h.1, h'.2.trans h.2, h'.3.trans h.3, h'.4.trans h.4, h'.5.trans h.5⟩

theorem sameWindow_applyProgram (program : Json) : SameWindow r (applyProgram program r) := by
  unfold applyProgram
  split <;> exact ⟨rfl, rfl, rfl, rfl, rfl⟩

theorem sameWindow_applyEnrichment (custom program : Json) :
    SameWindow r (applyEnrichment custom program r) :=
  ⟨rfl, rfl, rfl, rfl, rfl⟩

theorem sameWindow_applyRule (rule : Json) : SameWindow r (applyRule rule r) := by
  unfold applyRule
  split <;> exact ⟨rfl, rfl, rfl, rfl, rfl⟩

theorem sameWindow_dropRuleMarker : SameWindow r (dropRuleMarker r) := by
  unfold dropRuleMarker
  split <;> exact ⟨rfl, rfl, rfl, rfl, rfl⟩

theorem sameWindow_applyCustomProperties (custom : Json) :
    SameWindow (applyEarlyEnd (fieldOrBytes custom "status") custom
      (applyStatus (fieldOrBytes custom "status") r)) (applyCustomProperties custom r) := by
  refine SameWindow.trans ?_ (((sameWindow_applyProgram _).trans
    (sameWindow_applyEnrichment custom _)).trans (sameWindow_applyRule _))
  exact ⟨rfl, rfl, rfl, rfl, rfl⟩

end ServerRecording

/-! ## what the record says -/

/-- The status a record carries, or none. -/
def recordingStatus (item : Json) : ByteString :=
  fieldOrBytes (fieldRefOrNull item "custom_properties") "status"

/-- What the record says of a recording that is running at `now`. -/
def SaysRunning (item : Json) (now : Int) : Prop :=
  recordingStatus item = ascii "recording" ∨
    recordingStatus item = [] ∧ 0 < timeFromIso (fieldOrBytes item "start_time") ∧
      timeFromIso (fieldOrBytes item "start_time") ≤ now ∧
      now < timeFromIso (fieldOrBytes item "end_time")

/-- What the record says of a recording that is still to come at `now`. -/
def SaysToCome (item : Json) (now : Int) : Prop :=
  recordingStatus item = ascii "scheduled" ∨
    recordingStatus item = [] ∧ now < timeFromIso (fieldOrBytes item "start_time")

/-- Up to when a record says it was recorded: where it was stopped or
interrupted inside its window, or else to the window's end. -/
def recordedUpTo (item : Json) : Int :=
  let startTime := timeFromIso (fieldOrBytes item "start_time")
  let endTime := timeFromIso (fieldOrBytes item "end_time")
  let custom := fieldRefOrNull item "custom_properties"
  let cutShort :=
    if recordingStatus item = ascii "stopped" then timeFromIso (fieldOrBytes custom "stopped_at")
    else if recordingStatus item = ascii "interrupted" then
      timeFromIso (fieldOrBytes custom "ended_at")
    else endTime
  if startTime < cutShort ∧ cutShort < endTime then cutShort else endTime

theorem recordingStatus_eq_nil {item : Json}
    (h : (fieldRefOrNull item "custom_properties").isObject = false) :
    recordingStatus item = [] := by
  unfold recordingStatus fieldOrBytes fieldOrString Json.at?
  cases hcustom : fieldRefOrNull item "custom_properties" <;> simp_all [Json.isObject]

/-- What the status leaves of the window. -/
def statedWindow (item : Json) (now : Int) : ServerRecording :=
  applyEarlyEnd (recordingStatus item) (fieldRefOrNull item "custom_properties")
    (applyStatus (recordingStatus item) (recordingWindow item now))

/-- Nothing behind the status and the early end touches the window. -/
theorem sameWindow_parseRecordingFields (item : Json) (now : Int) :
    ServerRecording.SameWindow (statedWindow item now) (parseRecordingFields item now) := by
  refine ServerRecording.SameWindow.trans ?_ ServerRecording.sameWindow_dropRuleMarker
  cases hcustom : (fieldRefOrNull item "custom_properties").isObject with
  | true => exact ServerRecording.sameWindow_applyCustomProperties _
  | false =>
      have hstated : statedWindow item now = recordingWindow item now := by
        simp [statedWindow, recordingStatus_eq_nil hcustom, applyStatus, applyEarlyEnd, ascii]
      rw [hstated]
      exact ⟨rfl, rfl, rfl, rfl, rfl⟩

/-- The flags are those of the status; an early end only shortens. -/
theorem statedWindow_eq (item : Json) (now : Int) :
    ∃ d, statedWindow item now =
      { applyStatus (recordingStatus item) (recordingWindow item now) with
        durationSeconds := d } :=
  ServerRecording.eq_of_applyEarlyEnd _ _

theorem startTime_parseRecordingFields (item : Json) (now : Int) :
    (parseRecordingFields item now).startTime = timeFromIso (fieldOrBytes item "start_time") := by
  rw [(sameWindow_parseRecordingFields item now).startTime]
  obtain ⟨d, hearly⟩ := statedWindow_eq item now
  rw [hearly]
  exact (ServerRecording.sameTimes_applyStatus _).1

theorem endTime_parseRecordingFields (item : Json) (now : Int) :
    (parseRecordingFields item now).endTime = timeFromIso (fieldOrBytes item "end_time") := by
  rw [(sameWindow_parseRecordingFields item now).endTime]
  obtain ⟨d, hearly⟩ := statedWindow_eq item now
  rw [hearly]
  exact (ServerRecording.sameTimes_applyStatus _).2.1

theorem isInProgress_parseRecordingFields_iff (item : Json) (now : Int) :
    (parseRecordingFields item now).isInProgress = true ↔ SaysRunning item now := by
  rw [(sameWindow_parseRecordingFields item now).isInProgress]
  obtain ⟨d, hearly⟩ := statedWindow_eq item now
  rw [hearly]
  unfold SaysRunning
  show (applyStatus _ _).isInProgress = true ↔ _
  unfold applyStatus
  split
  · next hrecording => simp [hrecording]
  · next hrecording =>
      split
      · next hscheduled => simp [hscheduled, ascii]
      · next hscheduled =>
          split
          · next hother => simp [hother, hrecording]
          · next hnone =>
              rw [ne_eq, not_not] at hnone
              simp [hnone, recordingWindow, ascii]

theorem isUpcoming_parseRecordingFields_iff (item : Json) (now : Int) :
    (parseRecordingFields item now).isUpcoming = true ↔ SaysToCome item now := by
  rw [(sameWindow_parseRecordingFields item now).isUpcoming]
  obtain ⟨d, hearly⟩ := statedWindow_eq item now
  rw [hearly]
  unfold SaysToCome
  show (applyStatus _ _).isUpcoming = true ↔ _
  unfold applyStatus
  split
  · next hrecording => simp [hrecording, ascii]
  · next hrecording =>
      split
      · next hscheduled => simp [hscheduled]
      · next hscheduled =>
          split
          · next hother => simp [hother, hscheduled]
          · next hnone =>
              rw [ne_eq, not_not] at hnone
              simp [hnone, recordingWindow, ascii]

theorem durationSeconds_parseRecordingFields (item : Json) (now : Int) :
    (parseRecordingFields item now).durationSeconds =
      clampedDurationSeconds (timeFromIso (fieldOrBytes item "start_time"))
        (recordedUpTo item) := by
  rw [(sameWindow_parseRecordingFields item now).durationSeconds]
  have htimes := ServerRecording.sameTimes_applyStatus (r := recordingWindow item now)
    (recordingStatus item)
  have hwhole : (applyStatus (recordingStatus item) (recordingWindow item now)).durationSeconds =
      clampedDurationSeconds
        (applyStatus (recordingStatus item) (recordingWindow item now)).startTime
        (applyStatus (recordingStatus item) (recordingWindow item now)).endTime := by
    rw [htimes.1, htimes.2.1]
    exact htimes.2.2
  have hstart := htimes.1.trans (show _ = timeFromIso (fieldOrBytes item "start_time") from rfl)
  have hend := htimes.2.1.trans (show _ = timeFromIso (fieldOrBytes item "end_time") from rfl)
  unfold statedWindow recordedUpTo applyEarlyEnd
  dsimp only
  split
  · rw [ServerRecording.durationSeconds_shortenTo hwhole, hstart, hend]
  · split
    · rw [ServerRecording.durationSeconds_shortenTo hwhole, hstart, hend]
    · rw [hwhole, hstart, hend, ite_self]

/-- Every recording that is parsed is sound, whatever the server sent. -/
theorem sound_parseRecordingFields (item : Json) (now : Int) :
    (parseRecordingFields item now).Sound :=
  (sameWindow_parseRecordingFields item now).sound
    (((sound_recordingWindow item now).applyStatus _).applyEarlyEnd _ _)

end DispatcharrPvr
