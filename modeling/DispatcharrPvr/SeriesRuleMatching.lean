import DispatcharrPvr.Lib.FirstMax
import DispatcharrPvr.RecordingParser
import DispatcharrPvr.SeriesRuleTextMatch
import DispatcharrPvr.TimerIdentity

/-!
# SeriesRuleMatching

Which series rule each recording belongs to, and the earliest recording of each
rule (`MatchRecordingsToSeriesRules`): two passes over the rules for each
recording, with the earliest ones kept along the way.

The first pass compares channel ids, also where neither is one.
-/

namespace DispatcharrPvr

open FirstMax

/-! ## the source -/

/-- `LowerAscii`. -/
def lowerAscii (s : ByteString) : ByteString :=
  s.map fun c => if 65 ≤ c ∧ c ≤ 90 then c + 32 else c

/-- `ParseSeriesTextMode`. -/
def parseSeriesTextMode (rawMode : ByteString) (isTitle : Bool) : SeriesTextMode :=
  let mode := lowerAscii rawMode
  if mode = [] then if isTitle then .exact else .contains
  else if mode = ascii "regex" then .regex
  else if mode = ascii "search" then .search
  else if isTitle ∧ mode = ascii "exact" then .exact
  else .contains

/-- `PreparedRule`. -/
structure PreparedRule where
  evaluable : Bool
  title : ByteString
  titleMode : SeriesTextMode
  description : ByteString
  descriptionMode : SeriesTextMode

/-- `PrepareRule`. -/
def prepareRule (rule : TimerRule) : PreparedRule :=
  let title := stripUnicodeWhitespace rule.title
  let description := stripUnicodeWhitespace rule.description
  { evaluable := title ≠ [] ∨ description ≠ []
    title
    titleMode := parseSeriesTextMode rule.titleMode true
    description
    descriptionMode := parseSeriesTextMode rule.descriptionMode false }

/-- `SeriesRuleMatchResult`. -/
structure SeriesRuleMatchResult where
  recordingRuleIndex : List Int
  ruleEarliestRecordingIndex : List Int
deriving DecidableEq

section Matching

variable (tables : UnicodeTables)

/-- `RuleMatchesRecording`. -/
def ruleMatchesRecording (rule : PreparedRule) (rec : ServerRecording) : Bool :=
  if !rule.evaluable then false
  else if rule.title ≠ [] ∧
      matchSeriesText tables rule.titleMode rule.title rec.title ≠ .matches then false
  else if rule.description ≠ [] ∧
      matchSeriesText tables rule.descriptionMode rule.description rec.description ≠ .matches then
    false
  else true

/-- `sameScope` of the first pass. -/
def sameChannel (rule : TimerRule) (rec : ServerRecording) : Bool :=
  rule.channelId = rec.channelId

/-- `sameScope` of the second pass. -/
def channelLessFits (rule : TimerRule) (rec : ServerRecording) : Bool :=
  rule.channelId ≤ 0 ∧ (rule.tvgId = [] ∨ rule.tvgId = rec.programTvgId)

/-- The first rule in scope that matches. -/
def firstMatching (sameScope : TimerRule → ServerRecording → Bool) (rules : List TimerRule)
    (rec : ServerRecording) : Option Nat :=
  rules.findIdx? fun rule =>
    sameScope rule rec && ruleMatchesRecording tables (prepareRule rule) rec

/-- Whether a recording may belong to a series rule. -/
def isCandidate (rec : ServerRecording) : Bool :=
  (rec.isInProgress || rec.isUpcoming) && rec.recurringRuleId == 0

/-- The loop body, at a recording and its index. -/
def matchRecording (recordings : List ServerRecording) (rules : List TimerRule)
    (result : SeriesRuleMatchResult) (item : ServerRecording × Nat) : SeriesRuleMatchResult :=
  let (rec, recIdx) := item
  if !rec.isInProgress && !rec.isUpcoming then result
  else if rec.recurringRuleId ≠ 0 then result
  else
    -- the second pass, where the first has found none
    match (firstMatching tables sameChannel rules rec).or
        (firstMatching tables channelLessFits rules rec) with
    | none => result
    | some ruleIdx =>
        let earliest := result.ruleEarliestRecordingIndex.getD ruleIdx (-1)
        { recordingRuleIndex := result.recordingRuleIndex.set recIdx ruleIdx
          ruleEarliestRecordingIndex :=
            if earliest < 0 ∨ rec.startTime < (recordings.getD earliest.toNat {}).startTime then
              result.ruleEarliestRecordingIndex.set ruleIdx recIdx
            else result.ruleEarliestRecordingIndex }

/-- `MatchRecordingsToSeriesRules`. -/
def matchRecordingsToSeriesRules (recordings : List ServerRecording) (rules : List TimerRule) :
    SeriesRuleMatchResult :=
  recordings.zipIdx.foldl (matchRecording tables recordings rules)
    { recordingRuleIndex := List.replicate recordings.length (-1)
      ruleEarliestRecordingIndex := List.replicate rules.length (-1) }

/-! ## what it is for -/

/-- An index as the source has it, with -1 for none. -/
def indexOrNone : Option Nat → Int
  | none => -1
  | some i => i

/-- The rule a recording is to be linked to: the first one pinned to its channel
that matches, else the first channel-less one with a tvg id that fits. -/
def claimedRule (rules : List TimerRule) (rec : ServerRecording) : Option Nat :=
  if isCandidate rec then
    (firstMatching tables (fun rule rec => rule.channelId > 0 && sameChannel rule rec) rules rec).or
      (firstMatching tables channelLessFits rules rec)
  else none

/-- `e` is the index of the first recording of minimal start among those linked
to the rule, or -1 where there is none. -/
def EarliestLinked (recordings : List ServerRecording) (result : SeriesRuleMatchResult)
    (ruleIdx : Nat) (e : Int) : Prop :=
  (e = -1 ∧ ∀ i : Nat, result.recordingRuleIndex[i]? ≠ some (ruleIdx : Int)) ∨
    ∃ (i : Nat) (rec : ServerRecording), e = i ∧ recordings[i]? = some rec ∧
      result.recordingRuleIndex[i]? = some (ruleIdx : Int) ∧
      ∀ (j : Nat) (other : ServerRecording), recordings[j]? = some other →
        result.recordingRuleIndex[j]? = some (ruleIdx : Int) →
          rec.startTime ≤ other.startTime ∧ (j < i → rec.startTime < other.startTime)

/-- Each recording is linked as it is to be, and each rule has its earliest. -/
structure LinkedAsClaimed (recordings : List ServerRecording) (rules : List TimerRule)
    (result : SeriesRuleMatchResult) : Prop where
  links : result.recordingRuleIndex =
    recordings.map fun rec => indexOrNone (claimedRule tables rules rec)
  earliest_length : result.ruleEarliestRecordingIndex.length = rules.length
  earliest : ∀ ruleIdx e, result.ruleEarliestRecordingIndex[ruleIdx]? = some e →
    EarliestLinked recordings result ruleIdx e

/-- The first matching rule with the recording's own channel id, if there is one,
has a tvg id that fits, and no channel-less rule before it that matches has. -/
def FirstFits (rules : List TimerRule) (rec : ServerRecording) : Prop :=
  ∀ (j : Nat) (rule : TimerRule), rules[j]? = some rule → rule.channelId = rec.channelId →
    ruleMatchesRecording tables (prepareRule rule) rec = true →
    (∀ (i : Nat) (r : TimerRule), i < j → rules[i]? = some r → r.channelId = rec.channelId →
      ruleMatchesRecording tables (prepareRule r) rec = false) →
    channelLessFits rule rec = true ∧
      ∀ (i : Nat) (r : TimerRule), i < j → rules[i]? = some r → channelLessFits r rec = true →
        ruleMatchesRecording tables (prepareRule r) rec = false

/-! ## what the loop computes -/

/-- The rule the two passes find. -/
def linkedRule (rules : List TimerRule) (rec : ServerRecording) : Option Nat :=
  if isCandidate rec then
    (firstMatching tables sameChannel rules rec).or (firstMatching tables channelLessFits rules rec)
  else none

/-- The first recording of minimal start linked to a rule. -/
def earliestOf (rules : List TimerRule) (ruleIdx : Nat) (recordings : List ServerRecording) :
    Option (ServerRecording × Nat) :=
  firstMax (fun rec => linkedRule tables rules rec == some ruleIdx) (fun rec => -rec.startTime)
    recordings

/-- The result after the first recordings. -/
def resultOf (rules : List TimerRule) (done : List ServerRecording) (rest : Nat) :
    SeriesRuleMatchResult where
  recordingRuleIndex :=
    done.map (fun rec => indexOrNone (linkedRule tables rules rec)) ++ List.replicate rest (-1)
  ruleEarliestRecordingIndex :=
    (List.range rules.length).map fun ruleIdx =>
      indexOrNone ((earliestOf tables rules ruleIdx done).map (·.2))

variable {tables}

theorem firstMatching_lt {sameScope : TimerRule → ServerRecording → Bool} {rules : List TimerRule}
    {rec : ServerRecording} {ruleIdx : Nat}
    (h : firstMatching tables sameScope rules rec = some ruleIdx) : ruleIdx < rules.length :=
  (List.findIdx?_eq_some_iff_getElem.mp h).1

theorem linkedRule_lt {rules : List TimerRule} {rec : ServerRecording} {ruleIdx : Nat}
    (h : linkedRule tables rules rec = some ruleIdx) : ruleIdx < rules.length := by
  unfold linkedRule at h
  split at h
  · rw [Option.or_eq_some_iff] at h
    obtain h | ⟨-, h⟩ := h
    · exact firstMatching_lt h
    · exact firstMatching_lt h
  · contradiction

/-- The loop body links the recording and may replace the earliest of its rule. -/
theorem matchRecording_eq (recordings : List ServerRecording) (rules : List TimerRule)
    (result : SeriesRuleMatchResult) (rec : ServerRecording) (recIdx : Nat) :
    matchRecording tables recordings rules result (rec, recIdx) =
      match linkedRule tables rules rec with
      | none => result
      | some ruleIdx =>
          let earliest := result.ruleEarliestRecordingIndex.getD ruleIdx (-1)
          { recordingRuleIndex := result.recordingRuleIndex.set recIdx ruleIdx
            ruleEarliestRecordingIndex :=
              if earliest < 0 ∨ rec.startTime < (recordings.getD earliest.toNat {}).startTime then
                result.ruleEarliestRecordingIndex.set ruleIdx recIdx
              else result.ruleEarliestRecordingIndex } := by
  unfold matchRecording linkedRule isCandidate
  simp only
  by_cases hlisted : rec.isInProgress = true ∨ rec.isUpcoming = true
  · have hstays : (!rec.isInProgress && !rec.isUpcoming) = false := by
      obtain h | h := hlisted <;> simp [h]
    have hmay : (rec.isInProgress || rec.isUpcoming) = true := by
      obtain h | h := hlisted <;> simp [h]
    by_cases hrule : rec.recurringRuleId = 0
    · simp [hstays, hmay, hrule]
    · simp [hstays, hmay, hrule]
  · rw [not_or, Bool.not_eq_true, Bool.not_eq_true] at hlisted
    simp [hlisted]

/-- The entry of a rule, after one more recording. -/
theorem earliestOf_concat {rules : List TimerRule} {done : List ServerRecording}
    {rec : ServerRecording} {ruleIdx : Nat} :
    earliestOf tables rules ruleIdx (done ++ [rec]) =
      if linkedRule tables rules rec = some ruleIdx then
        match earliestOf tables rules ruleIdx done with
        | none => some (rec, done.length)
        | some best => if rec.startTime < best.1.startTime then some (rec, done.length)
            else some best
      else earliestOf tables rules ruleIdx done := by
  unfold earliestOf
  rw [firstMax_concat]
  by_cases hlink : linkedRule tables rules rec = some ruleIdx
  · rw [if_pos (by simpa using hlink), if_pos hlink]
    cases firstMax (fun rec => linkedRule tables rules rec == some ruleIdx)
        (fun rec => -rec.startTime) done with
    | none => rfl
    | some best =>
        by_cases hless : rec.startTime < best.1.startTime
        · simp [hless]
        · simp [hless]
  · rw [if_neg (by simpa using hlink), if_neg hlink]

theorem set_map_range (f : Nat → Int) (n k : Nat) (v : Int) :
    ((List.range n).map f).set k v = (List.range n).map fun j => if j = k then v else f j := by
  refine List.ext_getElem? fun i => ?_
  rw [List.getElem?_set, List.getElem?_map, List.getElem?_map]
  by_cases hi : i < n
  · rw [List.getElem?_range hi]
    by_cases hk : k = i
    · subst hk
      simp [hi]
    · rw [if_neg hk]
      simp [Ne.symm hk]
  · rw [List.getElem?_eq_none (by simpa using Nat.le_of_not_lt hi)]
    by_cases hk : k = i
    · subst hk
      simp [hi]
    · rw [if_neg hk]
      rfl

section Body

variable {rules : List TimerRule} (done after : List ServerRecording) {rec : ServerRecording}
  {ruleIdx : Nat} {entry : Int}

/-- The comparison of the loop body replaces a rule's entry by the new one. -/
theorem earliest_entry (hlink : linkedRule tables rules rec = some ruleIdx)
    (hentry : entry = indexOrNone ((earliestOf tables rules ruleIdx done).map (·.2))) :
    (if entry < 0 ∨ rec.startTime < ((done ++ rec :: after).getD entry.toNat {}).startTime then
        (done.length : Int) else entry) =
      indexOrNone ((earliestOf tables rules ruleIdx (done ++ [rec])).map (·.2)) := by
  rw [earliestOf_concat, if_pos hlink]
  cases hbest : earliestOf tables rules ruleIdx done with
  | none =>
      have hnone : entry = -1 := by rw [hentry, hbest]; rfl
      rw [hnone]
      rfl
  | some best =>
      have hsome : entry = (best.2 : Int) := by rw [hentry, hbest]; rfl
      have hat := (isFirstMax_of_firstMax hbest).at_index
      have hgetD : (done ++ rec :: after).getD best.2 {} = best.1 := by
        rw [List.getD_eq_getElem?_getD, List.getElem?_append_left
          (List.getElem?_eq_some_iff.mp hat).1, hat, Option.getD_some]
      have hnonneg : ¬ ((best.2 : Int) < 0) := by omega
      rw [hsome, Int.toNat_natCast, hgetD]
      by_cases hless : rec.startTime < best.1.startTime
      · simp [hless, indexOrNone]
      · simp [hless, hnonneg, indexOrNone]

/-- And leaves those of the other rules. -/
theorem earliest_entries (hlink : linkedRule tables rules rec = some ruleIdx)
    (hentry : entry = indexOrNone ((earliestOf tables rules ruleIdx done).map (·.2))) :
    (if entry < 0 ∨ rec.startTime < ((done ++ rec :: after).getD entry.toNat {}).startTime then
        (resultOf tables rules done (after.length + 1)).ruleEarliestRecordingIndex.set ruleIdx
          done.length
      else (resultOf tables rules done (after.length + 1)).ruleEarliestRecordingIndex) =
      (resultOf tables rules (done ++ [rec]) after.length).ruleEarliestRecordingIndex := by
  have hnew := earliest_entry done after hlink hentry
  have hother : ∀ j, j ≠ ruleIdx → earliestOf tables rules j (done ++ [rec]) =
      earliestOf tables rules j done := by
    intro j hj
    rw [earliestOf_concat, hlink, if_neg (by simpa using Ne.symm hj)]
  simp only [resultOf, set_map_range]
  split
  · next hless =>
      rw [if_pos hless] at hnew
      refine List.map_congr_left fun j _ => ?_
      by_cases hj : j = ruleIdx
      · rw [if_pos hj, hj, hnew]
      · rw [if_neg hj, hother j hj]
  · next hless =>
      rw [if_neg hless] at hnew
      refine List.map_congr_left fun j _ => ?_
      by_cases hj : j = ruleIdx
      · rw [hj, ← hnew, hentry]
      · rw [hother j hj]

/-- The loop body keeps the account. -/
theorem matchRecording_resultOf :
    matchRecording tables (done ++ rec :: after) rules
        (resultOf tables rules done (after.length + 1)) (rec, done.length) =
      resultOf tables rules (done ++ [rec]) after.length := by
  have hlinks : ∀ link : Option Nat, linkedRule tables rules rec = link →
      done.map (fun rec => indexOrNone (linkedRule tables rules rec)) ++
        indexOrNone link :: List.replicate after.length (-1) =
      (done ++ [rec]).map (fun rec => indexOrNone (linkedRule tables rules rec)) ++
        List.replicate after.length (-1) := by
    rintro link rfl
    rw [List.map_append, List.append_assoc]
    rfl
  rw [matchRecording_eq]
  cases hlink : linkedRule tables rules rec with
  | none =>
      have hearliest : ∀ ruleIdx, earliestOf tables rules ruleIdx (done ++ [rec]) =
          earliestOf tables rules ruleIdx done := by
        intro ruleIdx
        rw [earliestOf_concat, hlink, if_neg (by simp)]
      unfold resultOf
      simp only [hearliest, ← hlinks none hlink, List.replicate_succ]
      rfl
  | some ruleIdx =>
      have hgetD : (resultOf tables rules done (after.length + 1)).ruleEarliestRecordingIndex.getD
          ruleIdx (-1) = indexOrNone ((earliestOf tables rules ruleIdx done).map (·.2)) := by
        rw [resultOf, List.getD_eq_getElem?_getD, List.getElem?_map,
          List.getElem?_range (linkedRule_lt hlink)]
        rfl
      have hset : (resultOf tables rules done (after.length + 1)).recordingRuleIndex.set done.length
          ruleIdx = (resultOf tables rules (done ++ [rec]) after.length).recordingRuleIndex := by
        rw [resultOf, resultOf, ← hlinks _ hlink, List.set_append_right _ _ (by simp),
          List.length_map, Nat.sub_self, List.replicate_succ, List.set_cons_zero]
        rfl
      simp only [hgetD, hset, earliest_entries done after hlink rfl]

end Body

/-- The whole loop. -/
theorem matchRecordingsToSeriesRules_eq (recordings : List ServerRecording)
    (rules : List TimerRule) :
    matchRecordingsToSeriesRules tables recordings rules = resultOf tables rules recordings 0 := by
  have hprefix : ∀ done after : List ServerRecording, recordings = done ++ after →
      done.zipIdx.foldl (matchRecording tables recordings rules)
        (resultOf tables rules [] recordings.length) =
          resultOf tables rules done after.length := by
    intro done
    induction done using List.reverseRecOn with
    | nil =>
        rintro after rfl
        rfl
    | append_singleton done rec ih =>
        intro after heq
        have heq' : recordings = done ++ rec :: after := by
          rw [heq, List.append_assoc, List.singleton_append]
        rw [List.zipIdx_append, List.zipIdx_singleton, Nat.zero_add, List.foldl_append,
          ih _ heq', List.foldl_cons, List.foldl_nil, heq']
        exact matchRecording_resultOf done after
  have hstart : resultOf tables rules [] recordings.length =
      { recordingRuleIndex := List.replicate recordings.length (-1)
        ruleEarliestRecordingIndex := List.replicate rules.length (-1) } := by
    unfold resultOf
    congr 1
    exact List.eq_replicate_iff.mpr ⟨by simp, by simp [earliestOf, indexOrNone]⟩
  rw [matchRecordingsToSeriesRules, ← hstart]
  exact hprefix recordings [] (by simp)

/-! ## the earliest recordings -/

theorem indexOrNone_eq_natCast_iff {i : Option Nat} {k : Nat} :
    indexOrNone i = (k : Int) ↔ i = some k := by
  cases i with
  | none =>
      have hne : (-1 : Int) ≠ k := by omega
      simp [indexOrNone, hne]
  | some i =>
      show (i : Int) = k ↔ some i = some k
      rw [Option.some.injEq]
      omega

theorem indexOrNone_inj {i j : Option Nat} : indexOrNone i = indexOrNone j ↔ i = j := by
  constructor
  · intro h
    cases j with
    | none =>
        cases i with
        | none => rfl
        | some i => exact (indexOrNone_eq_natCast_iff.mp h.symm).symm
    | some j => exact indexOrNone_eq_natCast_iff.mp h
  · rintro rfl
    rfl

/-- The recordings linked to a rule. -/
theorem linked_at_iff {rules : List TimerRule} {recordings : List ServerRecording}
    {i ruleIdx : Nat} :
    (resultOf tables rules recordings 0).recordingRuleIndex[i]? = some (ruleIdx : Int) ↔
      ∃ rec, recordings[i]? = some rec ∧ linkedRule tables rules rec = some ruleIdx := by
  unfold resultOf
  rw [List.replicate_zero, List.append_nil, List.getElem?_map, Option.map_eq_some_iff]
  simp only [indexOrNone_eq_natCast_iff]

/-- Each rule has the first of minimal start among the recordings linked to it. -/
theorem earliestLinked_resultOf {rules : List TimerRule} {recordings : List ServerRecording}
    {ruleIdx : Nat} {e : Int}
    (he : (resultOf tables rules recordings 0).ruleEarliestRecordingIndex[ruleIdx]? = some e) :
    EarliestLinked recordings (resultOf tables rules recordings 0) ruleIdx e := by
  unfold EarliestLinked
  simp only [linked_at_iff]
  unfold resultOf at he
  rw [List.getElem?_map, Option.map_eq_some_iff] at he
  obtain ⟨k, hk, rfl⟩ := he
  obtain ⟨_, hk⟩ := List.getElem?_eq_some_iff.mp hk
  rw [List.getElem_range] at hk
  subst hk
  cases hearliest : earliestOf tables rules ruleIdx recordings with
  | none =>
      refine .inl ⟨rfl, ?_⟩
      intro i hi
      obtain ⟨rec, hat, hlink⟩ := linked_at_iff.mp hi
      have hnone := firstMax_eq_none_iff.mp hearliest rec (List.mem_of_getElem? hat)
      simp [hlink] at hnone
  | some best =>
      have hfirst := isFirstMax_of_firstMax hearliest
      have hlink : linkedRule tables rules best.1 = some ruleIdx := by simpa using hfirst.qualifies
      refine .inr ⟨best.2, best.1, rfl, hfirst.at_index, ⟨best.1, hfirst.at_index, hlink⟩, ?_⟩
      intro j other hat ⟨rec, hat', hother⟩
      obtain rfl : other = rec := Option.some.inj (hat.symm.trans hat')
      have hqualifies : (linkedRule tables rules other == some ruleIdx) = true := by
        simpa using hother
      have hle := hfirst.greatest other (List.mem_of_getElem? hat) hqualifies
      refine ⟨by omega, ?_⟩
      intro hj
      have hlt := hfirst.first j other hj hat hqualifies
      omega

/-! ## where the links are right -/

theorem firstMatching_eq_some_iff {sameScope : TimerRule → ServerRecording → Bool}
    {rules : List TimerRule} {rec : ServerRecording} {j : Nat} :
    firstMatching tables sameScope rules rec = some j ↔
      ∃ rule, rules[j]? = some rule ∧ sameScope rule rec = true ∧
        ruleMatchesRecording tables (prepareRule rule) rec = true ∧
        ∀ (i : Nat) (r : TimerRule), i < j → rules[i]? = some r → sameScope r rec = true →
          ruleMatchesRecording tables (prepareRule r) rec = false := by
  unfold firstMatching
  rw [List.findIdx?_eq_some_iff_getElem]
  constructor
  · intro ⟨hj, hfound, hbefore⟩
    rw [Bool.and_eq_true] at hfound
    refine ⟨rules[j], List.getElem?_eq_getElem hj, hfound.1, hfound.2, ?_⟩
    intro i r hi hr hscope
    obtain ⟨hlt, rfl⟩ := List.getElem?_eq_some_iff.mp hr
    simpa [hscope] using hbefore i hi
  · intro ⟨rule, hat, hscope, hmatches, hbefore⟩
    obtain ⟨hj, rfl⟩ := List.getElem?_eq_some_iff.mp hat
    refine ⟨hj, by rw [hscope, hmatches]; rfl, ?_⟩
    intro i hi hfound
    rw [Bool.and_eq_true] at hfound
    have hfalse := hbefore i _ hi (List.getElem?_eq_getElem (Nat.lt_trans hi hj)) hfound.1
    rw [hfalse] at hfound
    exact absurd hfound.2 (by decide)

/-- With a channel, the first pass is the claimed one. -/
theorem claimedRule_of_pos {rules : List TimerRule} {rec : ServerRecording}
    (hchannel : 0 < rec.channelId) :
    linkedRule tables rules rec = claimedRule tables rules rec := by
  have hscope : ∀ rule, sameChannel rule rec =
      (decide (rule.channelId > 0) && sameChannel rule rec) := by
    intro rule
    unfold sameChannel
    by_cases heq : rule.channelId = rec.channelId
    · simp [heq, hchannel]
    · simp [heq]
  unfold linkedRule claimedRule firstMatching
  simp only [← hscope]

/-- Without one, it is to find nothing that the second would not. -/
theorem linkedRule_eq_iff {rules : List TimerRule} {rec : ServerRecording}
    (hcandidate : isCandidate rec = true) (hchannel : rec.channelId ≤ 0) :
    linkedRule tables rules rec = claimedRule tables rules rec ↔ FirstFits tables rules rec := by
  have hpinned : firstMatching tables
      (fun rule rec => rule.channelId > 0 && sameChannel rule rec) rules rec = none := by
    refine List.findIdx?_eq_none_iff.mpr ?_
    intro rule _
    unfold sameChannel
    by_cases heq : rule.channelId = rec.channelId
    · simp [heq, Int.not_lt.mpr hchannel]
    · simp [heq]
  rw [linkedRule, claimedRule, if_pos hcandidate, if_pos hcandidate, hpinned, Option.none_or]
  unfold FirstFits
  cases hfirst : firstMatching tables sameChannel rules rec with
  | none =>
      rw [Option.none_or]
      refine iff_of_true rfl ?_
      intro j rule hat heq hmatches
      have hnone := List.findIdx?_eq_none_iff.mp hfirst rule (List.mem_of_getElem? hat)
      simp [sameChannel, heq, hmatches] at hnone
  | some k =>
      have hk := firstMatching_eq_some_iff.mp hfirst
      obtain ⟨rule, hat, hscope, hmatches, hbefore⟩ := hk
      have hsame : ∀ {r : TimerRule}, sameChannel r rec = true ↔ r.channelId = rec.channelId :=
        decide_eq_true_iff
      rw [Option.some_or, eq_comm, firstMatching_eq_some_iff]
      constructor
      · intro ⟨rule', hat', hfits, _, hless⟩ j r hr heq hr' hfirstj
        obtain rfl : rule = rule' := Option.some.inj (hat.symm.trans hat')
        have hjk : j = k := by
          have hnot : ¬ j < k := fun hlt => by
            have hfalse := hbefore j r hlt hr (hsame.mpr heq)
            rw [hr'] at hfalse
            contradiction
          have hnot' : ¬ k < j := fun hlt => by
            have hfalse := hfirstj k rule hlt hat (hsame.mp hscope)
            rw [hmatches] at hfalse
            contradiction
          omega
        subst hjk
        obtain rfl : rule = r := Option.some.inj (hat.symm.trans hr)
        exact ⟨hfits, hless⟩
      · intro h
        obtain ⟨hfits, hless⟩ := h k rule hat (hsame.mp hscope) hmatches
          fun i r hi hr heq => hbefore i r hi hr (hsame.mpr heq)
        exact ⟨rule, hat, hfits, hmatches, hless⟩

/-- Every recording is linked as it is to be exactly where, for each recording
without a channel, the first rule with its channel id fits. -/
theorem linkedAsClaimed_iff (recordings : List ServerRecording) (rules : List TimerRule) :
    LinkedAsClaimed tables recordings rules
        (matchRecordingsToSeriesRules tables recordings rules) ↔
      ∀ rec ∈ recordings, isCandidate rec = true → rec.channelId ≤ 0 →
        FirstFits tables rules rec := by
  rw [matchRecordingsToSeriesRules_eq]
  have hlinks : (resultOf tables rules recordings 0).recordingRuleIndex =
      recordings.map (fun rec => indexOrNone (claimedRule tables rules rec)) ↔
      ∀ rec ∈ recordings, linkedRule tables rules rec = claimedRule tables rules rec := by
    rw [resultOf, List.replicate_zero, List.append_nil, List.map_inj_left]
    simp only [indexOrNone_inj]
  have heach : ∀ rec, linkedRule tables rules rec = claimedRule tables rules rec ↔
      (isCandidate rec = true → rec.channelId ≤ 0 → FirstFits tables rules rec) := by
    intro rec
    by_cases hcandidate : isCandidate rec = true
    · by_cases hchannel : rec.channelId ≤ 0
      · rw [linkedRule_eq_iff hcandidate hchannel]
        exact ⟨fun h _ _ => h, fun h => h hcandidate hchannel⟩
      · exact iff_of_true (claimedRule_of_pos (Int.not_le.mp hchannel)) fun _ h => absurd h hchannel
    · refine iff_of_true ?_ fun h => absurd h hcandidate
      rw [linkedRule, claimedRule, if_neg hcandidate, if_neg hcandidate]
  constructor
  · intro h rec hrec
    exact (heach rec).mp (hlinks.mp h.links rec hrec)
  · intro h
    refine ⟨hlinks.mpr fun rec hrec => (heach rec).mpr (h rec hrec), ?_, ?_⟩
    · rw [resultOf, List.length_map, List.length_range]
    · intro ruleIdx e he
      exact earliestLinked_resultOf he

end Matching

/-- A recording without a channel, of another programme than the one rule is for. -/
theorem not_linkedAsClaimed_channelLess :
    let tables : UnicodeTables := ⟨[], [], .nil, .nil⟩
    let rule : TimerRule := { tvgId := ascii "a", title := ascii "News" }
    let rec1 : ServerRecording :=
      { isUpcoming := true, title := ascii "News", programTvgId := ascii "b" }
    ¬ LinkedAsClaimed tables [rec1] [rule] (matchRecordingsToSeriesRules tables [rec1] [rule]) := by
  intro tables rule rec1 h
  have hmatches : ruleMatchesRecording tables (prepareRule rule) rec1 = true := by
    decide +kernel
  have hfits := ((linkedAsClaimed_iff [rec1] [rule]).mp h rec1 (by simp) rfl (by decide)) 0 rule rfl
    rfl hmatches (fun i r hi => absurd hi (Nat.not_lt_zero i))
  exact absurd hfits.1 (by decide)

end DispatcharrPvr
