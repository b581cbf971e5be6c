import DispatcharrPvr.JsonFieldUtil
import Mathlib.Tactic.Common

/-!
# RecordingEpgLinks

Which programme of the guide each recording was matched to, remembered across
restarts (`RecordingEpgLinks.cpp`), and the text it is saved as.

The JSON library's `dump` and `parse` are parameters; all that is asked of them
is that a dumped document is read back, its non-negative integers as unsigned
ones.
-/

namespace DispatcharrPvr

open Std

/-- `RecordingEpgLink`. -/
structure RecordingEpgLink where
  channelId : Int32 := 0
  recordingStartTime : Int64 := 0
  programStartTime : Int64 := 0
deriving DecidableEq

/-- `RecordingEpgLinkMap`. -/
abbrev RecordingEpgLinkMap := ExtTreeMap Int32 RecordingEpgLink

/-- `kMaxRecordingEpgLinks`. -/
def maxRecordingEpgLinks : Nat := 20000

/-- `kFormatVersion`. -/
def recordingEpgLinksFormatVersion : Int := 1

/-- A link that is not to be kept, as its two writers test for it. -/
def RecordingEpgLink.isInvalid (recordingId : Int32) (link : RecordingEpgLink) : Bool :=
  recordingId ≤ 0 || link.channelId ≤ 0 || link.recordingStartTime ≤ 0 || link.programStartTime ≤ 0

theorem RecordingEpgLink.isInvalid_eq_false_iff {id : Int32} {link : RecordingEpgLink} :
    link.isInvalid id = false ↔
      0 < id ∧ 0 < link.channelId ∧ 0 < link.recordingStartTime ∧ 0 < link.programStartTime := by
  simp only [isInvalid, Bool.or_eq_false_iff, decide_eq_false_iff_not, and_assoc,
    Int32.not_le, Int64.not_le]

/-! ## the text -/

/-- An entry of the `links` array, its integers made by `number`. -/
def recordingEpgLinkEntry (number : Int → Json) (entry : Int32 × RecordingEpgLink) : Json :=
  .object [("channel", number entry.2.channelId.toInt), ("id", number entry.1.toInt),
    ("program_start", number entry.2.programStartTime.toInt),
    ("recording_start", number entry.2.recordingStartTime.toInt)]

/-- The document of `SerializeRecordingEpgLinks`. -/
def recordingEpgLinksDocument (number : Int → Json) (links : RecordingEpgLinkMap) : Json :=
  .object [("links", .array (links.toList.map (recordingEpgLinkEntry number))),
    ("version", number recordingEpgLinksFormatVersion)]

/-- `SerializeRecordingEpgLinks`. -/
def serializeRecordingEpgLinks {Text : Type} (dump : Json → Text) (links : RecordingEpgLinkMap) :
    Text :=
  dump (recordingEpgLinksDocument .numberInteger links)

/-- The id and the link that an entry is read as. -/
def parseRecordingEpgLinkEntry (entry : Json) : Int32 × RecordingEpgLink :=
  (Int32.ofInt (fieldOrInt entry "id" 0),
    { channelId := Int32.ofInt (fieldOrInt entry "channel" 0)
      recordingStartTime := Int64.ofInt (fieldOrLongLong entry "recording_start" 0)
      programStartTime := Int64.ofInt (fieldOrLongLong entry "program_start" 0) })

/-- The loop of `ParseRecordingEpgLinks`. -/
def parseRecordingEpgLinkEntries : List Json → RecordingEpgLinkMap → RecordingEpgLinkMap
  | [], out => out
  | entry :: entries, out =>
      if out.size ≥ maxRecordingEpgLinks then out
      else
        match entry with
        | .object _ =>
            let (id, link) := parseRecordingEpgLinkEntry entry
            if link.isInvalid id then parseRecordingEpgLinkEntries entries out
            else parseRecordingEpgLinkEntries entries (out.insert id link)
        | _ => parseRecordingEpgLinkEntries entries out

/-- `ParseRecordingEpgLinks` on the parsed document. -/
def parseRecordingEpgLinksDocument (doc : Json) : Bool × RecordingEpgLinkMap :=
  match doc with
  | .object _ =>
      if fieldOrInt doc "version" 0 ≠ recordingEpgLinksFormatVersion then (false, ∅)
      else
        match doc.at? "links" with
        | some (.array entries) => (true, parseRecordingEpgLinkEntries entries ∅)
        | _ => (false, ∅)
  | _ => (false, ∅)

/-- `ParseRecordingEpgLinks`: what it returns, and `out`. -/
def parseRecordingEpgLinks {Text : Type} (parse : Text → Option Json) (text : Text) :
    Bool × RecordingEpgLinkMap :=
  match parse text with
  | none => (false, ∅)
  | some doc => parseRecordingEpgLinksDocument doc

/-! ## the operations -/

/-- `RememberRecordingEpgLink`. -/
def rememberRecordingEpgLink (links : RecordingEpgLinkMap) (recordingId : Int32)
    (link : RecordingEpgLink) : Bool × RecordingEpgLinkMap :=
  if link.isInvalid recordingId then (false, links)
  else
    match links[recordingId]? with
    | some known => if known = link then (false, links) else (true, links.insert recordingId link)
    | none =>
        if links.size ≥ maxRecordingEpgLinks then (false, links)
        else (true, links.insert recordingId link)

/-- `LookupRememberedProgramStart`. -/
def lookupRememberedProgramStart (links : RecordingEpgLinkMap) (recordingId channelId : Int32)
    (recordingStartTime : Int64) : Int64 :=
  match links[recordingId]? with
  | none => 0
  | some link =>
      if link.channelId ≠ channelId ∨ link.recordingStartTime ≠ recordingStartTime then 0
      else link.programStartTime

/-- An iteration of `PruneRecordingEpgLinks`: what is left, and `removed`. -/
def pruneRecordingEpgLink (liveRecordingIds : List Int32) (pruned : RecordingEpgLinkMap × Nat)
    (recordingId : Int32) : RecordingEpgLinkMap × Nat :=
  if recordingId ∈ liveRecordingIds then pruned else (pruned.1.erase recordingId, pruned.2 + 1)

/-- `PruneRecordingEpgLinks`. -/
def pruneRecordingEpgLinks (links : RecordingEpgLinkMap) (liveRecordingIds : List Int32) :
    RecordingEpgLinkMap × Nat :=
  links.keys.foldl (pruneRecordingEpgLink liveRecordingIds) (links, 0)

/-! ## what a map holds after an operation -/

/-- A valid link that says something new goes in, for a new recording only where
there is room. -/
theorem rememberRecordingEpgLink_eq (links : RecordingEpgLinkMap) (recordingId : Int32)
    (link : RecordingEpgLink) :
    rememberRecordingEpgLink links recordingId link =
      if link.isInvalid recordingId = false ∧ links[recordingId]? ≠ some link ∧
          ((links[recordingId]?).isSome ∨ links.size < maxRecordingEpgLinks) then
        (true, links.insert recordingId link)
      else (false, links) := by
  unfold rememberRecordingEpgLink
  cases hinvalid : link.isInvalid recordingId with
  | true => simp
  | false =>
      cases hknown : links[recordingId]? with
      | some known =>
          by_cases hsame : known = link
          · simp [hsame]
          · simp [hsame]
      | none =>
          by_cases hroom : links.size < maxRecordingEpgLinks
          · simp [hroom, Nat.not_le.mpr hroom]
          · simp [hroom, Nat.not_lt.mp hroom]

section Lookups

variable (links : RecordingEpgLinkMap) (id k : Int32) (link : RecordingEpgLink)

theorem getElem?_insertLink :
    (links.insert id link)[k]? = if id = k then some link else links[k]? := by
  rw [ExtTreeMap.getElem?_insert]
  simp only [Std.compare_eq_iff_eq]

theorem getElem?_eraseLink : (links.erase id)[k]? = if id = k then none else links[k]? := by
  rw [ExtTreeMap.getElem?_erase]
  simp only [Std.compare_eq_iff_eq]

theorem size_insertLink_le : (links.insert id link).size ≤ links.size + 1 :=
  ExtTreeMap.size_insert_le

theorem size_insertLink_of_known (h : links[id]?.isSome) :
    (links.insert id link).size = links.size := by
  rw [ExtTreeMap.size_insert, if_pos]
  rwa [ExtTreeMap.contains_eq_isSome_getElem?]

end Lookups

/-- `PruneRecordingEpgLinks` leaves the links of the live recordings. -/
theorem getElem?_pruneRecordingEpgLinks (links : RecordingEpgLinkMap)
    (liveRecordingIds : List Int32) (id : Int32) :
    (pruneRecordingEpgLinks links liveRecordingIds).1[id]? =
      if id ∈ liveRecordingIds then links[id]? else none := by
  have hfold : ∀ (ids : List Int32) (pruned : RecordingEpgLinkMap × Nat),
      (ids.foldl (pruneRecordingEpgLink liveRecordingIds) pruned).1[id]? =
        if id ∈ ids ∧ id ∉ liveRecordingIds then none else pruned.1[id]? := by
    intro ids
    induction ids with
    | nil => simp
    | cons first ids ih =>
        intro pruned
        rw [List.foldl_cons, ih, pruneRecordingEpgLink]
        by_cases hlive : first ∈ liveRecordingIds
        · rw [if_pos hlive]
          grind
        · rw [if_neg hlive, getElem?_eraseLink]
          grind
  rw [pruneRecordingEpgLinks, hfold]
  by_cases hkey : id ∈ links.keys
  · grind
  · have hnone : links[id]? = none := by
      rw [ExtTreeMap.mem_keys] at hkey
      exact ExtTreeMap.getElem?_eq_none hkey
    grind

theorem size_pruneRecordingEpgLinks_le (links : RecordingEpgLinkMap)
    (liveRecordingIds : List Int32) :
    (pruneRecordingEpgLinks links liveRecordingIds).1.size ≤ links.size := by
  have hfold : ∀ (ids : List Int32) (pruned : RecordingEpgLinkMap × Nat),
      (ids.foldl (pruneRecordingEpgLink liveRecordingIds) pruned).1.size ≤ pruned.1.size := by
    intro ids
    induction ids with
    | nil => exact fun pruned => Nat.le_refl _
    | cons first ids ih =>
        intro pruned
        refine Nat.le_trans (ih _) ?_
        unfold pruneRecordingEpgLink
        split
        · exact Nat.le_refl _
        · exact ExtTreeMap.size_erase_le
  exact hfold _ _

/-! ## what is kept -/

/-- Links within the cap, none of them one to be turned away. -/
structure KeptLinks (links : RecordingEpgLinkMap) : Prop where
  size_le : links.size ≤ maxRecordingEpgLinks
  valid : ∀ (id : Int32) (link : RecordingEpgLink), links[id]? = some link →
    link.isInvalid id = false

namespace KeptLinks

variable {links : RecordingEpgLinkMap}

theorem empty : KeptLinks ∅ where
  size_le := Nat.zero_le _
  valid := by simp

/-- A valid link goes in where there is room for it. -/
theorem insert (h : KeptLinks links) {id : Int32} {link : RecordingEpgLink}
    (hvalid : link.isInvalid id = false)
    (hroom : (links[id]?).isSome ∨ links.size < maxRecordingEpgLinks) :
    KeptLinks (links.insert id link) where
  size_le := by
    rcases hroom with hknown | hroom
    · rw [size_insertLink_of_known links id link hknown]
      exact h.size_le
    · exact Nat.le_trans (size_insertLink_le links id link) hroom
  valid := by
    intro k other hother
    rw [getElem?_insertLink] at hother
    split at hother
    · next hsame =>
        obtain rfl : link = other := Option.some.inj hother
        rw [← hsame]
        exact hvalid
    · exact h.valid k other hother

theorem parseEntries (h : KeptLinks links) (entries : List Json) :
    KeptLinks (parseRecordingEpgLinkEntries entries links) := by
  induction entries generalizing links with
  | nil => exact h
  | cons entry entries ih =>
      unfold parseRecordingEpgLinkEntries
      split
      · exact h
      · next hroom =>
          split
          · dsimp only
            split
            · exact ih h
            · next hvalid => exact ih (h.insert (by simpa using hvalid) (.inr (by omega)))
          · exact ih h

/-- Whatever the text, what is read of it. -/
theorem parse {Text : Type} (parse : Text → Option Json) (text : Text) :
    KeptLinks (parseRecordingEpgLinks parse text).2 := by
  unfold parseRecordingEpgLinks
  split
  · exact empty
  · unfold parseRecordingEpgLinksDocument
    split
    · split
      · exact empty
      · split
        · exact empty.parseEntries _
        · exact empty
    · exact empty

theorem remember (h : KeptLinks links) (recordingId : Int32) (link : RecordingEpgLink) :
    KeptLinks (rememberRecordingEpgLink links recordingId link).2 := by
  rw [rememberRecordingEpgLink_eq]
  split
  · next haccepted => exact h.insert haccepted.1 haccepted.2.2
  · exact h

theorem prune (h : KeptLinks links) (liveRecordingIds : List Int32) :
    KeptLinks (pruneRecordingEpgLinks links liveRecordingIds).1 where
  size_le := Nat.le_trans (size_pruneRecordingEpgLinks_le links liveRecordingIds) h.size_le
  valid := by
    intro id link hlink
    rw [getElem?_pruneRecordingEpgLinks] at hlink
    split at hlink
    · exact h.valid id link hlink
    · contradiction

end KeptLinks

end DispatcharrPvr
