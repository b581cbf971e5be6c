import DispatcharrPvr.RecordingEpgLinks

/-!
# RecordingEpgLinks.Runs

The remembered links over any run: of the operations on them and of restarts,
which save the links and read them back.
-/

namespace DispatcharrPvr

open Std

/-! ## the text is read back -/

/-- A non-negative integer as the JSON library reads it back. -/
def rereadNumber (n : Int) : Json := .numberUnsigned n.toNat

/-- What the JSON library reads of the documents it wrote. -/
def LinksReadBack {Text : Type} (dump : Json → Text) (parse : Text → Option Json) : Prop :=
  ∀ links : RecordingEpgLinkMap, KeptLinks links →
    parse (dump (recordingEpgLinksDocument .numberInteger links)) =
      some (recordingEpgLinksDocument rereadNumber links)

theorem ofInt_fieldOrInt_rereadNumber {doc : Json} {key : String} {n : Int32} (hpos : 0 < n)
    (hat : doc.at? key = some (rereadNumber n.toInt)) : Int32.ofInt (fieldOrInt doc key 0) = n := by
  have hlt : 0 < n.toInt := Int32.lt_iff_toInt_lt.mp hpos
  have hmax : n.toInt ≤ intMax := Int.le_of_lt_add_one n.toInt_lt
  have hread : fieldOrInt doc key 0 = n.toInt := by
    unfold fieldOrInt
    rw [hat]
    dsimp only [rereadNumber]
    rw [if_neg (by omega)]
    omega
  rw [hread, Int32.ofInt_toInt]

theorem ofInt_fieldOrLongLong_rereadNumber {doc : Json} {key : String} {n : Int64} (hpos : 0 < n)
    (hat : doc.at? key = some (rereadNumber n.toInt)) :
    Int64.ofInt (fieldOrLongLong doc key 0) = n := by
  have hlt : 0 < n.toInt := Int64.lt_iff_toInt_lt.mp hpos
  have hmax : n.toInt ≤ int64Max := Int.le_of_lt_add_one n.toInt_lt
  have hread : fieldOrLongLong doc key 0 = n.toInt := by
    unfold fieldOrLongLong fieldOrInt64
    rw [hat]
    dsimp only [rereadNumber]
    rw [if_neg (by omega)]
    omega
  rw [hread, Int64.ofInt_toInt]

theorem parseRecordingEpgLinkEntry_reread {id : Int32} {link : RecordingEpgLink}
    (hvalid : link.isInvalid id = false) :
    parseRecordingEpgLinkEntry (recordingEpgLinkEntry rereadNumber (id, link)) = (id, link) := by
  obtain ⟨hid, hchannel, hrecording, hprogram⟩ :=
    RecordingEpgLink.isInvalid_eq_false_iff.mp hvalid
  unfold parseRecordingEpgLinkEntry
  rw [ofInt_fieldOrInt_rereadNumber hid rfl, ofInt_fieldOrInt_rereadNumber hchannel rfl,
    ofInt_fieldOrLongLong_rereadNumber hrecording rfl,
    ofInt_fieldOrLongLong_rereadNumber hprogram rfl]

/-- The loop takes up a valid entry while there is room. -/
theorem parseRecordingEpgLinkEntries_cons {id : Int32} {link : RecordingEpgLink}
    {entries : List Json} {out : RecordingEpgLinkMap} (hroom : out.size < maxRecordingEpgLinks)
    (hvalid : link.isInvalid id = false) :
    parseRecordingEpgLinkEntries (recordingEpgLinkEntry rereadNumber (id, link) :: entries) out =
      parseRecordingEpgLinkEntries entries (out.insert id link) := by
  show (if out.size ≥ maxRecordingEpgLinks then out
    else
      let read := parseRecordingEpgLinkEntry (recordingEpgLinkEntry rereadNumber (id, link))
      if read.2.isInvalid read.1 then parseRecordingEpgLinkEntries entries out
      else parseRecordingEpgLinkEntries entries (out.insert read.1 read.2)) = _
  rw [if_neg (Nat.not_le.mpr hroom), parseRecordingEpgLinkEntry_reread hvalid]
  exact if_neg (by simp [hvalid])

theorem parseRecordingEpgLinkEntries_reread {entries : List (Int32 × RecordingEpgLink)}
    {out : RecordingEpgLinkMap} (hroom : out.size + entries.length ≤ maxRecordingEpgLinks)
    (hvalid : ∀ entry ∈ entries, entry.2.isInvalid entry.1 = false) :
    parseRecordingEpgLinkEntries (entries.map (recordingEpgLinkEntry rereadNumber)) out =
      out.insertMany entries := by
  induction entries generalizing out with
  | nil => simp [parseRecordingEpgLinkEntries]
  | cons entry entries ih =>
      obtain ⟨id, link⟩ := entry
      have hsize := size_insertLink_le out id link
      rw [List.length_cons] at hroom
      have hrest : (out.insert id link).size + entries.length ≤ maxRecordingEpgLinks := by omega
      rw [List.map_cons, parseRecordingEpgLinkEntries_cons (by omega) (hvalid (id, link) (by simp)),
        ih hrest (fun entry hmem => hvalid entry (by simp [hmem])), ExtTreeMap.insertMany_cons]

/-- The entries of a map, one after the other, make the map. -/
theorem insertMany_toList (links : RecordingEpgLinkMap) :
    (∅ : RecordingEpgLinkMap).insertMany links.toList = links := by
  apply ExtTreeMap.ext_getElem?
  intro id
  cases hlink : links[id]? with
  | some link =>
      have hmem := ExtTreeMap.mem_toList_iff_getElem?_eq_some.mpr hlink
      exact ExtTreeMap.getElem?_insertMany_list_of_mem compare_self
        ExtTreeMap.distinct_keys_toList hmem
  | none =>
      rw [ExtTreeMap.getElem?_insertMany_list_of_contains_eq_false]
      · simp
      · rw [ExtTreeMap.map_fst_toList_eq_keys, ← Bool.not_eq_true, List.contains_iff_mem,
          ExtTreeMap.mem_keys, ← ExtTreeMap.isSome_getElem?_iff_mem, hlink]
        exact Bool.false_ne_true

/-- **The text is read back**: saving kept links and reading them changes nothing. -/
theorem KeptLinks.reload {Text : Type} {dump : Json → Text} {parse : Text → Option Json}
    (hlibrary : LinksReadBack dump parse) {links : RecordingEpgLinkMap} (h : KeptLinks links) :
    parseRecordingEpgLinks parse (serializeRecordingEpgLinks dump links) = (true, links) := by
  unfold parseRecordingEpgLinks serializeRecordingEpgLinks
  rw [hlibrary links h]
  show (true, parseRecordingEpgLinkEntries
    (links.toList.map (recordingEpgLinkEntry rereadNumber)) ∅) = _
  rw [parseRecordingEpgLinkEntries_reread, insertMany_toList]
  · rw [ExtTreeMap.length_toList]
    simpa using h.size_le
  · intro entry hmem
    exact h.valid entry.1 entry.2 (ExtTreeMap.mem_toList_iff_getElem?_eq_some.mp hmem)

/-! ## the runs -/

inductive LinkEvent where
  | remember (recordingId : Int32) (link : RecordingEpgLink)
  | lookup (recordingId channelId : Int32) (recordingStartTime : Int64)
  | prune (liveRecordingIds : List Int32)
  /-- The links are saved and, in a new process, read. -/
  | reload

/-- What an operation returns. -/
inductive LinkAnswer where
  | changed (changed : Bool)
  | programStart (time : Int64)
  | removed (count : Nat)
  | read (ok : Bool)
deriving DecidableEq

section Runs

variable {Text : Type} (dump : Json → Text) (parse : Text → Option Json)

/-- One event: the links after it, and what it returns. -/
def performLinkEvent (links : RecordingEpgLinkMap) : LinkEvent → RecordingEpgLinkMap × LinkAnswer
  | .remember recordingId link =>
      let remembered := rememberRecordingEpgLink links recordingId link
      (remembered.2, .changed remembered.1)
  | .lookup recordingId channelId recordingStartTime =>
      (links, .programStart
        (lookupRememberedProgramStart links recordingId channelId recordingStartTime))
  | .prune liveRecordingIds =>
      let pruned := pruneRecordingEpgLinks links liveRecordingIds
      (pruned.1, .removed pruned.2)
  | .reload =>
      let read := parseRecordingEpgLinks parse (serializeRecordingEpgLinks dump links)
      (read.2, .read read.1)

/-- The links after the events, and the events with what they returned. -/
def runLinkEvents : RecordingEpgLinkMap → List LinkEvent →
    RecordingEpgLinkMap × List (LinkEvent × LinkAnswer)
  | links, [] => (links, [])
  | links, event :: events =>
      let performed := performLinkEvent dump parse links event
      let run := runLinkEvents performed.1 events
      (run.1, (event, performed.2) :: run.2)

end Runs

/-- The link of a recording that was accepted last and not pruned since, one
event on. -/
def latestAccepted (id : Int32) (known : Option RecordingEpgLink) :
    LinkEvent × LinkAnswer → Option RecordingEpgLink
  | (.remember recordingId link, .changed true) => if recordingId = id then some link else known
  | (.prune liveRecordingIds, _) => if id ∈ liveRecordingIds then known else none
  | _ => known

section Steps

variable {Text : Type} {dump : Json → Text} {parse : Text → Option Json}
  {links : RecordingEpgLinkMap}

theorem KeptLinks.perform (hlibrary : LinksReadBack dump parse) (h : KeptLinks links)
    (event : LinkEvent) : KeptLinks (performLinkEvent dump parse links event).1 := by
  cases event with
  | remember recordingId link => exact h.remember recordingId link
  | lookup => exact h
  | prune liveRecordingIds => exact h.prune liveRecordingIds
  | reload =>
      unfold performLinkEvent
      rw [h.reload hlibrary]
      exact h

/-- **Spec of a step**: a recording has the link accepted last. -/
theorem KeptLinks.getElem?_perform (hlibrary : LinksReadBack dump parse) (h : KeptLinks links)
    (event : LinkEvent) (id : Int32) :
    (performLinkEvent dump parse links event).1[id]? =
      latestAccepted id links[id]? (event, (performLinkEvent dump parse links event).2) := by
  cases event with
  | remember recordingId link =>
      simp only [performLinkEvent, rememberRecordingEpgLink_eq]
      split
      · exact getElem?_insertLink links recordingId id link
      · rfl
  | lookup => rfl
  | prune liveRecordingIds => exact getElem?_pruneRecordingEpgLinks links liveRecordingIds id
  | reload =>
      unfold performLinkEvent
      rw [h.reload hlibrary]
      rfl

theorem KeptLinks.run (hlibrary : LinksReadBack dump parse) (h : KeptLinks links)
    (events : List LinkEvent) :
    KeptLinks (runLinkEvents dump parse links events).1 ∧
      ∀ id : Int32, (runLinkEvents dump parse links events).1[id]? =
        (runLinkEvents dump parse links events).2.foldl (latestAccepted id) links[id]? := by
  induction events generalizing links with
  | nil => exact ⟨h, fun id => rfl⟩
  | cons event events ih =>
      obtain ⟨hkept, hlatest⟩ := ih (h.perform hlibrary event)
      refine ⟨hkept, fun id => ?_⟩
      rw [runLinkEvents, List.foldl_cons, ← h.getElem?_perform hlibrary event id]
      exact hlatest id

theorem lookupRememberedProgramStart_eq_iff {id channelId : Int32}
    {recordingStartTime programStartTime : Int64} (hne : programStartTime ≠ 0) :
    lookupRememberedProgramStart links id channelId recordingStartTime = programStartTime ↔
      links[id]? = some { channelId, recordingStartTime, programStartTime } := by
  unfold lookupRememberedProgramStart
  cases links[id]? with
  | none => simp [hne.symm]
  | some link =>
      obtain ⟨channel, recording, program⟩ := link
      simp only [Option.some.injEq, RecordingEpgLink.mk.injEq]
      grind

end Steps

/-- **The link store**: over any run of its operations and restarts, from no
links or from any text, the links stay within the cap and positive, a restart
changes nothing that comes after it, and a programme start is found exactly when
the link accepted last for the recording, and not pruned since, is of that
channel and start. -/
theorem recordingEpgLinks_run {Text : Type} {dump : Json → Text} {parse : Text → Option Json}
    (hlibrary : LinksReadBack dump parse) {start : RecordingEpgLinkMap}
    (hstart : start = ∅ ∨ ∃ text, start = (parseRecordingEpgLinks parse text).2)
    (events : List LinkEvent) :
    let run := runLinkEvents dump parse start events
    run.1.size ≤ maxRecordingEpgLinks ∧
    (∀ (id : Int32) (link : RecordingEpgLink), run.1[id]? = some link →
      0 < id ∧ 0 < link.channelId ∧ 0 < link.recordingStartTime ∧ 0 < link.programStartTime) ∧
    (∀ later, runLinkEvents dump parse run.1 (.reload :: later) =
      ((runLinkEvents dump parse run.1 later).1,
        (.reload, .read true) :: (runLinkEvents dump parse run.1 later).2)) ∧
    (∀ (id channelId : Int32) (recordingStartTime programStartTime : Int64),
      programStartTime ≠ 0 →
        (lookupRememberedProgramStart run.1 id channelId recordingStartTime = programStartTime ↔
          run.2.foldl (latestAccepted id) start[id]? =
            some { channelId, recordingStartTime, programStartTime })) := by
  intro run
  have hkept : KeptLinks start := by
    rcases hstart with rfl | ⟨text, rfl⟩
    · exact KeptLinks.empty
    · exact KeptLinks.parse parse text
  obtain ⟨hrun, hlatest⟩ := hkept.run hlibrary events
  refine ⟨hrun.size_le, fun id link hlink => ?_, fun later => ?_,
    fun id channelId recordingStartTime programStartTime hne => ?_⟩
  · exact RecordingEpgLink.isInvalid_eq_false_iff.mp (hrun.valid id link hlink)
  · rw [runLinkEvents, performLinkEvent, hrun.reload hlibrary]
  · rw [lookupRememberedProgramStart_eq_iff hne, hlatest id]

/-! ## a restart between -/

mutual

/-- The JSON library on a document, a text being the document it is of. -/
def rereadJson : Json → Json
  | .array items => .array (rereadItems items)
  | .object fields => .object (rereadFields fields)
  | .numberInteger n => if 0 ≤ n then rereadNumber n else .numberInteger n
  | value => value

def rereadItems : List Json → List Json
  | [] => []
  | item :: items => rereadJson item :: rereadItems items

def rereadFields : List (String × Json) → List (String × Json)
  | [] => []
  | (key, value) :: fields => (key, rereadJson value) :: rereadFields fields

end

theorem rereadItems_eq_map (items : List Json) : rereadItems items = items.map rereadJson := by
  induction items with
  | nil => rfl
  | cons item items ih => rw [rereadItems, ih, List.map_cons]

theorem linksReadBack_rereadJson :
    LinksReadBack (fun doc => doc) fun doc => some (rereadJson doc) := by
  intro links h
  have hitems : (links.toList.map (recordingEpgLinkEntry .numberInteger)).map rereadJson =
      links.toList.map (recordingEpgLinkEntry rereadNumber) := by
    rw [List.map_map, List.map_inj_left]
    intro entry hmem
    have hlink := ExtTreeMap.mem_toList_iff_getElem?_eq_some.mp hmem
    obtain ⟨hid, hchannel, hrecording, hprogram⟩ :=
      RecordingEpgLink.isInvalid_eq_false_iff.mp (h.valid entry.1 entry.2 hlink)
    have hidInt : (0 : Int) ≤ entry.1.toInt := Int.le_of_lt (Int32.lt_iff_toInt_lt.mp hid)
    have hchannelInt : (0 : Int) ≤ entry.2.channelId.toInt :=
      Int.le_of_lt (Int32.lt_iff_toInt_lt.mp hchannel)
    have hrecordingInt : (0 : Int) ≤ entry.2.recordingStartTime.toInt :=
      Int.le_of_lt (Int64.lt_iff_toInt_lt.mp hrecording)
    have hprogramInt : (0 : Int) ≤ entry.2.programStartTime.toInt :=
      Int.le_of_lt (Int64.lt_iff_toInt_lt.mp hprogram)
    simp only [Function.comp_apply, recordingEpgLinkEntry, rereadJson, rereadFields, hidInt,
      hchannelInt, hrecordingInt, hprogramInt, if_true]
  unfold recordingEpgLinksDocument
  simp only [rereadJson, rereadFields, rereadItems_eq_map, hitems]
  rfl

/-- A link is remembered, replaced and found again after a restart, for its own
channel and start only. -/
theorem recordingEpgLinks_run_restart :
    let first : RecordingEpgLink := ⟨3, 1000, 900⟩
    let second : RecordingEpgLink := ⟨4, 2000, 1900⟩
    let run := runLinkEvents (fun doc => doc) (fun doc => some (rereadJson doc)) ∅
      [.remember 7 first, .reload, .remember 7 second, .remember 0 first, .prune [7], .reload]
    lookupRememberedProgramStart run.1 7 4 2000 = 1900 := by
  intro first second run
  have hrun := recordingEpgLinks_run linksReadBack_rereadJson (.inl rfl)
    [.remember 7 first, .reload, .remember 7 second, .remember 0 first, .prune [7], .reload]
  exact (hrun.2.2.2 7 4 2000 1900 (by decide)).mpr (by decide +kernel)

end DispatcharrPvr
