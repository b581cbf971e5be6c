import DispatcharrPvr.RecordingParser

/-!
# RecordingVisibility

Where a recording is shown, and what a timer delete does to it
(`RecordingVisibility.cpp`, the one-time branch of `DeleteTimer`).  The clock
may have moved on between the fetch and the listing.
-/

namespace DispatcharrPvr

/-! ## the lists -/

/-- `IsListedAsRecording`. -/
def isListedAsRecording (rec : ServerRecording) : Bool := !rec.isUpcoming

/-- `IsMissedOccurrence`. -/
def isMissedOccurrence (isUpcoming : Bool) (endTime now : Int) : Bool :=
  isUpcoming && decide (endTime > 0) && decide (endTime ≤ now)

/-- `IsListedAsTimer`. -/
def isListedAsTimer (rec : ServerRecording) (now : Int) : Bool :=
  if rec.isInProgress then true
  else rec.isUpcoming && !isMissedOccurrence rec.isUpcoming rec.endTime now

/-- A recording in progress is in both lists, one to come among the timers
unless it was missed, and any other among the recordings. -/
theorem ServerRecording.Sound.listed {rec : ServerRecording} (h : rec.Sound) (now : Int) :
    (isListedAsRecording rec = true ∧ isListedAsTimer rec now = true ↔
      rec.isInProgress = true) ∧
    (isListedAsRecording rec = false ∧ isListedAsTimer rec now = false ↔
      isMissedOccurrence rec.isUpcoming rec.endTime now = true) := by
  have hexclusive := h.exclusive
  unfold isListedAsRecording isListedAsTimer isMissedOccurrence
  cases hprogress : rec.isInProgress with
  | true =>
      have hupcoming : rec.isUpcoming = false := by simpa [hprogress] using hexclusive
      simp [hupcoming]
  | false =>
      cases hupcoming : rec.isUpcoming with
      | true => simp
      | false => simp

theorem isMissedOccurrence_eq_true_iff {isUpcoming : Bool} {endTime now : Int} :
    isMissedOccurrence isUpcoming endTime now = true ↔
      isUpcoming = true ∧ 0 < endTime ∧ endTime ≤ now := by
  simp [isMissedOccurrence, and_assoc]

theorem ServerRecording.Sound.listedAsRecording_alone {rec : ServerRecording} (h : rec.Sound)
    (now : Int) :
    isListedAsRecording rec = true ∧ isListedAsTimer rec now = false ↔
      ¬ rec.isInProgress = true ∧ ¬ rec.isUpcoming = true := by
  have hexclusive := h.exclusive
  unfold isListedAsRecording isListedAsTimer
  cases hprogress : rec.isInProgress with
  | true => simp
  | false => cases hupcoming : rec.isUpcoming <;> simp

theorem ServerRecording.Sound.listedAsTimer_alone {rec : ServerRecording} (h : rec.Sound)
    (now : Int) :
    isListedAsRecording rec = false ∧ isListedAsTimer rec now = true ↔
      rec.isUpcoming = true ∧ ¬ (0 < rec.endTime ∧ rec.endTime ≤ now) := by
  have hexclusive := h.exclusive
  unfold isListedAsRecording isListedAsTimer isMissedOccurrence
  cases hupcoming : rec.isUpcoming with
  | true =>
      have hprogress : rec.isInProgress = false := by simpa [hupcoming] using hexclusive
      simp [hprogress]
      omega
  | false => simp

/-! ## deleting a timer -/

/-- `DeleteTimerAction`. -/
inductive DeleteTimerAction
  | delete
  | stop
  | alreadyDone
  | refuseUnverified
deriving DecidableEq, Repr

/-- `ShouldStopInsteadOfDelete`. -/
def shouldStopInsteadOfDelete (forceDelete lookupOk serverSaysInProgress : Bool) : Bool :=
  forceDelete || (lookupOk && serverSaysInProgress)

/-- `IsAlreadyFinishedRecording`. -/
def isAlreadyFinishedRecording (lookupOk isInProgress isUpcoming : Bool) : Bool :=
  lookupOk && !isInProgress && !isUpcoming

/-- `DecideDeleteTimerAction`. -/
def decideDeleteTimerAction (forceDelete lookupOk : Bool) (lookupHttpStatus : Int)
    (isInProgress isUpcoming : Bool) : DeleteTimerAction :=
  if lookupOk then
    if isAlreadyFinishedRecording lookupOk isInProgress isUpcoming then .alreadyDone
    else if shouldStopInsteadOfDelete forceDelete lookupOk isInProgress then .stop
    else .delete
  else if lookupHttpStatus = 404 then .alreadyDone
  else if forceDelete then .stop
  else .refuseUnverified

/-- How `Request` answered the lookup of a recording, and when. -/
structure LookupAnswer where
  /-- The response of a request that succeeded. -/
  response : Option Json
  httpStatus : Int
  now : Int

/-- `GetRecordingById`: the recording, where the answer describes it. -/
def getRecordingById (id : Int) (answer : LookupAnswer) : Option ServerRecording :=
  match answer.response with
  | none => none
  | some item =>
      if isRecordingResponseFor item id then some (parseRecordingFields item answer.now) else none

theorem getRecordingById_eq_some_iff {id : Int} {answer : LookupAnswer}
    {recording : ServerRecording} :
    getRecordingById id answer = some recording ↔
      ∃ item, answer.response = some item ∧ isRecordingResponseFor item id = true ∧
        parseRecordingFields item answer.now = recording := by
  unfold getRecordingById
  cases answer.response with
  | none => simp
  | some item => simp

/-- The requests a timer delete may send. -/
inductive RecordingRequest
  | stop (id : Int)
  | delete (id : Int)
deriving DecidableEq, Repr

/-- The request of an action. -/
def DeleteTimerAction.request (id : Int) : DeleteTimerAction → Option RecordingRequest
  | alreadyDone => none
  | stop => some (.stop id)
  | delete => some (.delete id)
  | refuseUnverified => none

/-- The branch of `DeleteTimer` for a recording of its own: the request it
sends, if it sends one. -/
def deleteOneTimeTimer (id : Int) (forceDelete : Bool) (answer : LookupAnswer) :
    Option RecordingRequest :=
  let lookupOk := (getRecordingById id answer).isSome
  let recording := (getRecordingById id answer).getD {}
  (decideDeleteTimerAction forceDelete lookupOk answer.httpStatus recording.isInProgress
    recording.isUpcoming).request id

theorem decideDeleteTimerAction_eq_delete_iff {forceDelete lookupOk isInProgress isUpcoming : Bool}
    {lookupHttpStatus : Int} :
    decideDeleteTimerAction forceDelete lookupOk lookupHttpStatus isInProgress isUpcoming =
      .delete ↔
    lookupOk = true ∧ forceDelete = false ∧ isUpcoming = true ∧ isInProgress = false := by
  unfold decideDeleteTimerAction isAlreadyFinishedRecording shouldStopInsteadOfDelete
  cases lookupOk with
  | true => cases isInProgress <;> cases isUpcoming <;> cases forceDelete <;> simp
  | false =>
      simp only [Bool.false_eq_true, if_false, false_and, iff_false]
      split
      · simp
      · cases forceDelete <;> simp

theorem DeleteTimerAction.request_eq_delete_iff {id i : Int} {action : DeleteTimerAction} :
    action.request id = some (.delete i) ↔ i = id ∧ action = .delete := by
  cases action <;> simp [request, eq_comm]

/-- A recording is deleted exactly where Kodi does not take it for running and
the lookup found it still to come. -/
theorem deleteOneTimeTimer_eq_delete_iff {id i : Int} {forceDelete : Bool}
    {answer : LookupAnswer} :
    deleteOneTimeTimer id forceDelete answer = some (.delete i) ↔
      i = id ∧ forceDelete = false ∧ ∃ recording, getRecordingById id answer = some recording ∧
        recording.isUpcoming = true ∧ recording.isInProgress = false := by
  rw [deleteOneTimeTimer, DeleteTimerAction.request_eq_delete_iff,
    decideDeleteTimerAction_eq_delete_iff]
  cases getRecordingById id answer with
  | none => simp
  | some recording => simp

/-! ## main result -/

/-- Whatever the server sends and whenever it is read and listed: a recording
has the times of its record, is in progress where the record says that it is
running and upcoming where it says that it is to come, which is never both,
and lasts as long as the record says, between nothing and its window.  It is in
both lists while it is running, among the timers alone while it is to come,
among the recordings alone when it is neither, and in neither list only when
it was missed.  A timer delete becomes the delete of a recording only where the
lookup described it and it is upcoming and not in progress. -/
theorem recording_shown_where_it_should :
    (∀ (item : Json) (now listedAt : Int),
      let recording := parseRecordingFields item now
      let startTime := timeFromIso (fieldOrBytes item "start_time")
      let endTime := timeFromIso (fieldOrBytes item "end_time")
      (recording.startTime = startTime ∧ recording.endTime = endTime) ∧
      (recording.isInProgress = true ↔ SaysRunning item now) ∧
      (recording.isUpcoming = true ↔ SaysToCome item now) ∧
      ¬ (recording.isInProgress = true ∧ recording.isUpcoming = true) ∧
      recording.durationSeconds = clampedDurationSeconds startTime (recordedUpTo item) ∧
      (0 ≤ recording.durationSeconds ∧
        recording.durationSeconds ≤
          clampedDurationSeconds recording.startTime recording.endTime) ∧
      (isListedAsRecording recording = true ∧ isListedAsTimer recording listedAt = true ↔
        SaysRunning item now) ∧
      (isListedAsRecording recording = true ∧ isListedAsTimer recording listedAt = false ↔
        ¬ SaysRunning item now ∧ ¬ SaysToCome item now) ∧
      (isListedAsRecording recording = false ∧ isListedAsTimer recording listedAt = true ↔
        SaysToCome item now ∧ ¬ (0 < endTime ∧ endTime ≤ listedAt)) ∧
      (isListedAsRecording recording = false ∧ isListedAsTimer recording listedAt = false ↔
        isMissedOccurrence recording.isUpcoming recording.endTime listedAt = true) ∧
      (isMissedOccurrence recording.isUpcoming recording.endTime listedAt = true ↔
        SaysToCome item now ∧ 0 < endTime ∧ endTime ≤ listedAt)) ∧
    ∀ (id i : Int) (forceDelete : Bool) (answer : LookupAnswer),
      deleteOneTimeTimer id forceDelete answer = some (.delete i) ↔
        i = id ∧ forceDelete = false ∧ ∃ item, answer.response = some item ∧
          isRecordingResponseFor item id = true ∧
          (parseRecordingFields item answer.now).isUpcoming = true ∧
          (parseRecordingFields item answer.now).isInProgress = false ∧
          SaysToCome item answer.now ∧ ¬ SaysRunning item answer.now := by
  constructor
  · intro item now listedAt recording startTime endTime
    have hsound : recording.Sound := sound_parseRecordingFields item now
    have hrunning : recording.isInProgress = true ↔ SaysRunning item now :=
      isInProgress_parseRecordingFields_iff item now
    have htoCome : recording.isUpcoming = true ↔ SaysToCome item now :=
      isUpcoming_parseRecordingFields_iff item now
    have hend : recording.endTime = endTime := endTime_parseRecordingFields item now
    refine ⟨⟨startTime_parseRecordingFields item now, hend⟩, hrunning, htoCome, hsound.exclusive,
      durationSeconds_parseRecordingFields item now,
      ⟨hsound.duration_nonneg, hsound.duration_le⟩, ?_, ?_, ?_, (hsound.listed listedAt).2, ?_⟩
    · rw [← hrunning]
      exact (hsound.listed listedAt).1
    · rw [← hrunning, ← htoCome]
      exact hsound.listedAsRecording_alone listedAt
    · rw [← htoCome, ← hend]
      exact hsound.listedAsTimer_alone listedAt
    · rw [← htoCome, ← hend]
      exact isMissedOccurrence_eq_true_iff
  · intro id i forceDelete answer
    rw [deleteOneTimeTimer_eq_delete_iff]
    refine and_congr_right fun _ => and_congr_right fun _ => ?_
    constructor
    · rintro ⟨recording, hlookup, hupcoming, hprogress⟩
      obtain ⟨item, hresponse, hdescribes, rfl⟩ := getRecordingById_eq_some_iff.mp hlookup
      refine ⟨item, hresponse, hdescribes, hupcoming, hprogress,
        (isUpcoming_parseRecordingFields_iff item _).mp hupcoming, fun hrunning => ?_⟩
      rw [(isInProgress_parseRecordingFields_iff item _).mpr hrunning] at hprogress
      contradiction
    · rintro ⟨item, hresponse, hdescribes, hupcoming, hprogress, -, -⟩
      exact ⟨_, getRecordingById_eq_some_iff.mpr ⟨item, hresponse, hdescribes, rfl⟩, hupcoming,
        hprogress⟩

/-- A scheduled recording of the year 2100, deleted before it begins. -/
theorem recording_shown_where_it_should_scheduled :
    let item : Json := .object [("id", .numberUnsigned 7),
      ("start_time", .string "2100-01-01T00:00:00Z"), ("end_time", .string "2100-01-01T01:00:00Z"),
      ("custom_properties", .object [("status", .string "scheduled")])]
    (parseRecordingFields item 0).isUpcoming = true := by
  intro item
  have hdelete : deleteOneTimeTimer 7 false ⟨some item, 200, 0⟩ = some (.delete 7) := by
    decide +kernel
  obtain ⟨-, -, found, hresponse, -, hupcoming, -⟩ :=
    (recording_shown_where_it_should.2 7 7 false ⟨some item, 200, 0⟩).mp hdelete
  obtain rfl := Option.some.inj hresponse
  exact hupcoming

end DispatcharrPvr
