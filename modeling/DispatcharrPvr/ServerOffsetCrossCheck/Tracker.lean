import DispatcharrPvr.Lib.Runs
import DispatcharrPvr.ServerOffsetCrossCheck
import Mathlib.Data.List.Induction

/-!
# ServerOffsetCrossCheck.Tracker

Whole runs of `UpdateServerOffsetTracker`.  The pending override is the one the
last `pendingCount` calls all proposed, and nothing but those calls came
between; the active override only ever becomes a value that a block of
`kServerOffsetConfirmations` calls proposed.
-/

namespace DispatcharrPvr

/-- One call: the zone setting, and what the judgement is made from. -/
structure OffsetCall where
  zone : ByteString
  table : Int → Option Int
  legacy : Int → Option Int
  samples : List OffsetSample

namespace OffsetCall

/-- The judgement handed to the tracker. -/
def judgement (call : OffsetCall) : ServerOffsetJudgement :=
  judgeServerOffset call.table call.legacy call.samples

/-- A sample at which the table agrees with the server at the offset `o`. -/
def AgreesAt (call : OffsetCall) (o : Int) : Prop :=
  ∃ sample ∈ call.samples, tableOffsetAt call.table sample = some o ∧
    impliedOffsetMinutes sample.ruleStartTimeOfDaySeconds sample.occurrenceStartUtc o = o

/-- The call proposes the override `ov` in the zone `zone`, which is one. -/
structure Proposes (call : OffsetCall) (zone : ByteString) (ov : ServerOffsetOverride) : Prop where
  zone_eq : call.zone = zone
  not_manual : zone ≠ manualZone
  disagrees : call.judgement.kind = .disagrees
  proposed : call.judgement.proposed = ov

end OffsetCall

/-- `UpdateServerOffsetTracker` on a call. -/
def ServerOffsetTracker.update (tracker : ServerOffsetTracker) (call : OffsetCall) :
    ServerOffsetTracker × ServerOffsetChange :=
  updateServerOffsetTracker tracker call.zone call.judgement

/-- The tracker after the calls, from the initial one. -/
def ServerOffsetTracker.after (calls : List OffsetCall) : ServerOffsetTracker :=
  calls.foldl (fun tracker call => (tracker.update call).1) {}

theorem ServerOffsetTracker.after_concat (calls : List OffsetCall) (call : OffsetCall) :
    ServerOffsetTracker.after (calls ++ [call]) = ((ServerOffsetTracker.after calls).update call).1 := by
  simp [ServerOffsetTracker.after]

/-! ## the agreeing offsets -/

theorem CrossCheck.mem_agreeingOffsets_look {table : Int → Option Int} {st : CrossCheck}
    {sample : OffsetSample} {o : Int} :
    o ∈ (st.look table sample).agreeingOffsets ↔
      o ∈ st.agreeingOffsets ∨ (tableOffsetAt table sample = some o ∧
        impliedOffsetMinutes sample.ruleStartTimeOfDaySeconds sample.occurrenceStartUtc o = o) := by
  unfold CrossCheck.look
  cases htable : tableOffsetAt table sample with
  | none => simp
  | some tableOffset =>
      simp only [Option.some.injEq]
      by_cases himplied : impliedOffsetMinutes sample.ruleStartTimeOfDaySeconds
          sample.occurrenceStartUtc tableOffset = tableOffset
      · rw [if_pos himplied]
        by_cases hmem : tableOffset ∈ st.agreeingOffsets <;> grind
      · rw [if_neg himplied]
        grind

theorem CrossCheck.mem_agreeingOffsets_foldl {table : Int → Option Int}
    {samples : List OffsetSample} {st : CrossCheck} {o : Int} :
    o ∈ (samples.foldl (CrossCheck.look table) st).agreeingOffsets ↔
      o ∈ st.agreeingOffsets ∨ ∃ sample ∈ samples, tableOffsetAt table sample = some o ∧
        impliedOffsetMinutes sample.ruleStartTimeOfDaySeconds sample.occurrenceStartUtc o = o := by
  induction samples generalizing st with
  | nil => simp
  | cons sample samples ih =>
      rw [List.foldl_cons, ih, CrossCheck.mem_agreeingOffsets_look]
      simp [or_assoc]

/-- The offsets of an agreeing judgement are those of the agreeing samples. -/
theorem OffsetCall.mem_agreeingTableOffsets {call : OffsetCall} {o : Int} :
    o ∈ call.judgement.agreeingTableOffsets ↔ call.judgement.kind = .agrees ∧ call.AgreesAt o := by
  have hjudged : call.judgement.agreeingTableOffsets =
      (crossCheckServerOffset call.table call.samples).agreeingTableOffsets := by
    simp only [OffsetCall.judgement, judgeServerOffset]
    split
    · rfl
    · split <;> rfl
  have hkind : call.judgement.kind = .agrees ↔
      (crossCheckServerOffset call.table call.samples).kind = .agrees := by
    simp only [OffsetCall.judgement, judgeServerOffset]
    split
    · rfl
    · split <;> grind
  rw [hjudged, hkind, crossCheckServerOffset]
  split
  · rw [CrossCheck.mem_agreeingOffsets_foldl]
    simp [OffsetCall.AgreesAt]
  · split <;> simp

/-! ## one call -/

namespace ServerOffsetTracker

/-- The number of proposals a disagreeing judgement counts up to. -/
def counted (tracker : ServerOffsetTracker) (proposed : ServerOffsetOverride) : Nat :=
  if proposed = tracker.pending then tracker.pendingCount + 1 else 1

/-- Everything a judgement of the tracker's own zone can do. -/
theorem learn_cases (tracker : ServerOffsetTracker) (judgement : ServerOffsetJudgement) :
    ((judgement.kind = .disagrees → judgement.proposed = tracker.active) ∧
      (judgement.kind = .agrees → tracker.active.contradicted judgement = false) ∧
      tracker.learn judgement = (tracker.dropPending, .none)) ∨
    (judgement.kind = .agrees ∧ tracker.active.contradicted judgement = true ∧
      tracker.learn judgement = (tracker.clear, .cleared)) ∨
    (judgement.kind = .disagrees ∧ judgement.proposed ≠ tracker.active ∧
      ((tracker.counted judgement.proposed < serverOffsetConfirmations ∧
          tracker.learn judgement =
            ({ tracker with
                pending := judgement.proposed
                pendingCount := tracker.counted judgement.proposed }, .none)) ∨
        (serverOffsetConfirmations ≤ tracker.counted judgement.proposed ∧
          tracker.learn judgement =
            ({ tracker with active := judgement.proposed }.dropPending,
              if tracker.active.mode ≠ .none then .changed else .activated)))) := by
  unfold learn
  cases hkind : judgement.kind with
  | noEvidence => exact .inl ⟨nofun, nofun, rfl⟩
  | agrees =>
      cases hcontradicted : tracker.active.contradicted judgement with
      | false => exact .inl ⟨nofun, fun _ => rfl, rfl⟩
      | true => exact .inr (.inl ⟨rfl, rfl, rfl⟩)
  | disagrees =>
      by_cases hactive : judgement.proposed = tracker.active
      · exact .inl ⟨fun _ => hactive, nofun, by simp [hactive]⟩
      · refine .inr (.inr ⟨rfl, hactive, ?_⟩)
        have hcounted : (if judgement.proposed = tracker.pending then
              { tracker with pendingCount := tracker.pendingCount + 1 }
            else { tracker with pending := judgement.proposed, pendingCount := 1 }) =
            { tracker with
              pending := judgement.proposed
              pendingCount := tracker.counted judgement.proposed } := by
          unfold counted
          by_cases hpending : judgement.proposed = tracker.pending
          · simp [hpending]
          · simp [hpending]
        simp only [if_neg hactive, hcounted]
        by_cases hcount : tracker.counted judgement.proposed < serverOffsetConfirmations
        · exact .inl ⟨hcount, by rw [if_pos hcount]⟩
        · exact .inr ⟨by omega, by rw [if_neg hcount]; rfl⟩

/-- The tracker as the judgement finds it: emptied by a change of zone. -/
def enter (tracker : ServerOffsetTracker) (zone : ByteString) : ServerOffsetTracker :=
  if zone = manualZone ∨ zone ≠ tracker.zone then { tracker.clear with zone } else tracker

@[simp] theorem enter_zone (tracker : ServerOffsetTracker) (zone : ByteString) :
    (tracker.enter zone).zone = zone := by
  unfold enter
  split
  · rfl
  · grind

/-- Entering a zone leaves the tracker alone or empties it. -/
theorem enter_cases (tracker : ServerOffsetTracker) (zone : ByteString) :
    (zone = tracker.zone ∧ tracker.enter zone = tracker) ∨
    ((zone = manualZone ∨ zone ≠ tracker.zone) ∧
      tracker.enter zone = { tracker.clear with zone }) := by
  unfold enter
  by_cases h : zone = manualZone ∨ zone ≠ tracker.zone
  · exact .inr ⟨h, if_pos h⟩
  · rw [if_neg h]
    exact .inl ⟨by grind, rfl⟩

theorem update_manual {tracker : ServerOffsetTracker} {call : OffsetCall}
    (h : call.zone = manualZone) : (tracker.update call).1 = tracker.enter call.zone := by
  simp [update, updateServerOffsetTracker, enter, h]

theorem update_fst {tracker : ServerOffsetTracker} {call : OffsetCall}
    (h : call.zone ≠ manualZone) :
    (tracker.update call).1 = ((tracker.enter call.zone).learn call.judgement).1 := by
  by_cases hzone : call.zone ≠ tracker.zone <;>
    simp [update, updateServerOffsetTracker, enter, h, hzone]

/-! ## the invariant -/

/-- What every call keeps of the tracker alone. -/
structure WellFormed (tracker : ServerOffsetTracker) : Prop where
  active_none : tracker.active.mode = .none → tracker.active = {}
  pending_none : tracker.pendingCount = 0 → tracker.pending = {}
  pending_mode : 0 < tracker.pendingCount → tracker.pending.mode ≠ .none
  pending_ne : 0 < tracker.pendingCount → tracker.pending ≠ tracker.active
  count_lt : tracker.pendingCount < serverOffsetConfirmations

/-- The last `pendingCount` calls are those that proposed the pending override,
and the active one has not moved since the first of them. -/
def Recent (calls : List OffsetCall) (tracker : ServerOffsetTracker) : Prop :=
  ∃ earlier recent, calls = earlier ++ recent ∧ recent.length = tracker.pendingCount ∧
    (∀ call ∈ recent, call.Proposes tracker.zone tracker.pending) ∧
    ∀ part, part ≠ [] → part <+: recent → (after (earlier ++ part)).active = tracker.active

theorem WellFormed.initial : WellFormed {} := by
  constructor <;> decide

theorem wellFormed_dropPending (tracker : ServerOffsetTracker)
    (h : tracker.active.mode = .none → tracker.active = {}) :
    tracker.dropPending.WellFormed := by
  have hzero : ¬ 0 < tracker.dropPending.pendingCount := Nat.lt_irrefl 0
  refine ⟨h, fun _ => rfl, ?_, ?_, ?_⟩
  · intro hpos
    exact absurd hpos hzero
  · intro hpos
    exact absurd hpos hzero
  · simp [dropPending, serverOffsetConfirmations]

theorem WellFormed.clear {tracker : ServerOffsetTracker} {zone : ByteString} :
    WellFormed { tracker.clear with zone } :=
  wellFormed_dropPending { tracker.clear with zone } fun _ => rfl

theorem WellFormed.enter {tracker : ServerOffsetTracker} (h : tracker.WellFormed)
    (zone : ByteString) : (tracker.enter zone).WellFormed := by
  rcases enter_cases tracker zone with ⟨-, henter⟩ | ⟨-, henter⟩
  · rwa [henter]
  · rw [henter]
    exact .clear

theorem counted_pos (tracker : ServerOffsetTracker) (proposed : ServerOffsetOverride) :
    0 < tracker.counted proposed := by
  unfold counted
  split <;> omega

theorem WellFormed.learn {tracker : ServerOffsetTracker} {judgement : ServerOffsetJudgement}
    (h : tracker.WellFormed)
    (hmode : judgement.kind = .disagrees → judgement.proposed.mode ≠ .none) :
    (tracker.learn judgement).1.WellFormed := by
  rcases learn_cases tracker judgement with ⟨-, -, hlearn⟩ | ⟨-, -, hlearn⟩ |
    ⟨hkind, hactive, ⟨hcount, hlearn⟩ | ⟨-, hlearn⟩⟩
  · rw [hlearn]
    exact wellFormed_dropPending _ h.active_none
  · rw [hlearn]
    exact wellFormed_dropPending tracker.clear fun _ => rfl
  · rw [hlearn]
    have hpos := counted_pos tracker judgement.proposed
    refine ⟨h.active_none, fun hzero => ?_, fun _ => hmode hkind, fun _ => hactive, hcount⟩
    exact absurd hzero (by simp only; omega)
  · rw [hlearn]
    exact wellFormed_dropPending { tracker with active := judgement.proposed }
      fun hnone => absurd hnone (hmode hkind)

theorem WellFormed.update {tracker : ServerOffsetTracker} (h : tracker.WellFormed)
    (call : OffsetCall) : (tracker.update call).1.WellFormed := by
  by_cases hzone : call.zone = manualZone
  · rw [update_manual hzone]
    exact h.enter call.zone
  · rw [update_fst hzone]
    exact (h.enter call.zone).learn judgeServerOffset_proposed_mode

theorem wellFormed_after (calls : List OffsetCall) : (after calls).WellFormed :=
  Runs.foldl_history (I := fun _ tracker => WellFormed tracker) .initial
    (fun h => h.update _) calls

/-! ## the recent calls -/

theorem Recent.of_count_zero {calls : List OffsetCall} {tracker : ServerOffsetTracker}
    (h : tracker.pendingCount = 0) : Recent calls tracker := by
  refine ⟨calls, [], by simp, by simp [h], by simp, fun part hne hpre => ?_⟩
  exact absurd (List.prefix_nil.mp hpre) hne

theorem Recent.enter {calls : List OffsetCall} {tracker : ServerOffsetTracker}
    (h : Recent calls tracker) (zone : ByteString) : Recent calls (tracker.enter zone) := by
  rcases enter_cases tracker zone with ⟨-, henter⟩ | ⟨-, henter⟩
  · rwa [henter]
  · rw [henter]
    exact .of_count_zero rfl

/-- A proposal and the calls it is counted with. -/
theorem Recent.propose {calls : List OffsetCall} {tracker : ServerOffsetTracker}
    {call : OffsetCall} (h : Recent calls tracker)
    (hcall : call.Proposes tracker.zone call.judgement.proposed) :
    ∃ earlier recent, calls = earlier ++ recent ∧
      (recent ++ [call]).length = tracker.counted call.judgement.proposed ∧
      (∀ c ∈ recent ++ [call], c.Proposes tracker.zone call.judgement.proposed) ∧
      ∀ part, part ≠ [] → part <+: recent → (after (earlier ++ part)).active = tracker.active := by
  obtain ⟨earlier, recent, hcalls, hlength, hproposes, hactive⟩ := h
  by_cases hpending : call.judgement.proposed = tracker.pending
  · refine ⟨earlier, recent, hcalls, ?_, ?_, hactive⟩
    · simp [counted, hpending, hlength]
    · intro c hc
      rcases List.mem_append.mp hc with hc | hc
      · rw [hpending]
        exact hproposes c hc
      · obtain rfl := List.mem_singleton.mp hc
        exact hcall
  · refine ⟨calls, [], by simp, ?_, ?_, ?_⟩
    · simp [counted, hpending]
    · simpa using hcall
    · intro part hne hpre
      exact absurd (List.prefix_nil.mp hpre) hne

/-- The prefixes of a list and one more element. -/
theorem active_of_prefix_concat {earlier recent : List OffsetCall} {call : OffsetCall}
    {active : ServerOffsetOverride}
    (hrecent : ∀ part, part ≠ [] → part <+: recent → (after (earlier ++ part)).active = active)
    (hcall : (after (earlier ++ recent ++ [call])).active = active) :
    ∀ part, part ≠ [] → part <+: recent ++ [call] → (after (earlier ++ part)).active = active := by
  intro part hne hpre
  rcases List.prefix_concat_iff.mp hpre with heq | hpre
  · subst heq
    rw [← List.append_assoc]
    exact hcall
  · exact hrecent part hne hpre

theorem Recent.update {calls : List OffsetCall} (h : Recent calls (after calls))
    (call : OffsetCall) : Recent (calls ++ [call]) (after (calls ++ [call])) := by
  by_cases hzone : call.zone = manualZone
  · rw [after_concat, update_manual hzone]
    rcases enter_cases (after calls) call.zone with ⟨hsame, -⟩ | ⟨-, henter⟩
    · apply Recent.of_count_zero
      simp [ServerOffsetTracker.enter, hzone, clear]
    · rw [henter]
      exact .of_count_zero rfl
  · have hafter : after (calls ++ [call]) =
        (((after calls).enter call.zone).learn call.judgement).1 := by
      rw [after_concat, update_fst hzone]
    rcases learn_cases ((after calls).enter call.zone) call.judgement with ⟨-, -, hlearn⟩ |
      ⟨-, -, hlearn⟩ | ⟨hkind, -, ⟨-, hlearn⟩ | ⟨-, hlearn⟩⟩
    · rw [hafter, hlearn]
      exact .of_count_zero rfl
    · rw [hafter, hlearn]
      exact .of_count_zero rfl
    · have hcall : call.Proposes ((after calls).enter call.zone).zone call.judgement.proposed :=
        ⟨by simp, by simpa using hzone, hkind, rfl⟩
      obtain ⟨earlier, recent, hcalls, hlength, hproposes, hactive⟩ :=
        (h.enter call.zone).propose hcall
      rw [hlearn] at hafter
      refine ⟨earlier, recent ++ [call], by rw [hcalls, List.append_assoc], ?_, ?_, ?_⟩
      · rw [hafter, hlength]
      · rw [hafter]
        exact hproposes
      · rw [hafter]
        refine active_of_prefix_concat hactive ?_
        rw [← hcalls, hafter]
    · rw [hafter, hlearn]
      exact .of_count_zero rfl

theorem recent_after (calls : List OffsetCall) : Recent calls (after calls) := by
  induction calls using List.reverseRecOn with
  | nil => exact .of_count_zero rfl
  | append_singleton calls call ih => exact ih.update call

end ServerOffsetTracker

/-! ## what a call returns -/

/-- The change from one active override to another. -/
def changeBetween (before after : ServerOffsetOverride) : ServerOffsetChange :=
  if after = before then .none
  else if after.mode = .none then .cleared
  else if before.mode = .none then .activated
  else .changed

namespace ServerOffsetTracker

theorem changeBetween_clear {active : ServerOffsetOverride} (h : active.mode = .none → active = {}) :
    changeBetween active {} = if active.mode ≠ .none then .cleared else .none := by
  by_cases hmode : active.mode = .none
  · simp [changeBetween, h hmode]
  · have hne : ({} : ServerOffsetOverride) ≠ active := by
      intro heq
      exact hmode (by rw [← heq])
    simp [changeBetween, hmode, hne]

theorem learn_snd {tracker : ServerOffsetTracker} {judgement : ServerOffsetJudgement}
    (h : tracker.WellFormed)
    (hmode : judgement.kind = .disagrees → judgement.proposed.mode ≠ .none) :
    (tracker.learn judgement).2 =
      changeBetween tracker.active (tracker.learn judgement).1.active := by
  rcases learn_cases tracker judgement with ⟨-, -, hlearn⟩ | ⟨-, hcontradicted, hlearn⟩ |
    ⟨hkind, hactive, ⟨-, hlearn⟩ | ⟨-, hlearn⟩⟩
  · simp [hlearn, dropPending, changeBetween]
  · have hne : tracker.active.mode ≠ .none := by
      intro hnone
      simp [ServerOffsetOverride.contradicted, hnone] at hcontradicted
    rw [hlearn]
    simp only [clear]
    rw [changeBetween_clear h.active_none, if_pos hne]
  · simp [hlearn, changeBetween]
  · rw [hlearn]
    by_cases hnone : tracker.active.mode = .none <;>
      simp [changeBetween, dropPending, hmode hkind, hactive, hnone]

/-- The judgement of a zone just entered activates nothing. -/
theorem learn_of_count_zero (tracker : ServerOffsetTracker) (judgement : ServerOffsetJudgement)
    (hactive : tracker.active = {}) (hpending : tracker.pending = {})
    (hmode : judgement.kind = .disagrees → judgement.proposed.mode ≠ .none) :
    (tracker.learn judgement).2 = .none ∧ (tracker.learn judgement).1.active = {} := by
  rcases learn_cases tracker judgement with ⟨-, -, hlearn⟩ | ⟨-, hcontradicted, hlearn⟩ |
    ⟨hkind, -, ⟨-, hlearn⟩ | ⟨hcount, -⟩⟩
  · rw [hlearn]
    exact ⟨rfl, hactive⟩
  · simp [ServerOffsetOverride.contradicted, hactive] at hcontradicted
  · rw [hlearn]
    exact ⟨rfl, hactive⟩
  · have hne : judgement.proposed ≠ tracker.pending := by
      intro heq
      exact hmode hkind (by rw [heq, hpending])
    simp [counted, hne, serverOffsetConfirmations] at hcount

theorem update_snd {tracker : ServerOffsetTracker} (h : tracker.WellFormed) (call : OffsetCall) :
    (tracker.update call).2 = changeBetween tracker.active (tracker.update call).1.active := by
  have hmode : call.judgement.kind = .disagrees → call.judgement.proposed.mode ≠ .none :=
    judgeServerOffset_proposed_mode
  by_cases hmanual : call.zone = manualZone
  · have hupdate : tracker.update call =
        ({ tracker.clear with zone := call.zone },
          if tracker.active.mode ≠ .none then .cleared else .none) := by
      simp [update, updateServerOffsetTracker, hmanual]
    rw [hupdate]
    exact (changeBetween_clear h.active_none).symm
  · by_cases hzone : call.zone = tracker.zone
    · have hupdate : tracker.update call = tracker.learn call.judgement := by
        have hstays : ¬ (call.zone = manualZone ∨ call.zone ≠ tracker.zone) := by grind
        rw [update, updateServerOffsetTracker, if_neg hstays]
      rw [hupdate]
      exact learn_snd h hmode
    · obtain ⟨hnone, hactive⟩ := learn_of_count_zero
        { tracker.clear with zone := call.zone } call.judgement rfl rfl hmode
      have hupdate : tracker.update call =
          (({ tracker.clear with zone := call.zone }.learn call.judgement).1,
            if tracker.active.mode ≠ .none then .cleared else .none) := by
        simp [update, updateServerOffsetTracker, hmanual, hzone, hnone]
      rw [hupdate]
      simp only
      rw [hactive, changeBetween_clear h.active_none]

/-! ## whole runs -/

/-- The calls that complete the confirmation of a new active override. -/
theorem confirmed_of_active_ne {calls : List OffsetCall} {call : OffsetCall}
    (hne : (after (calls ++ [call])).active ≠ (after calls).active)
    (hmode : (after (calls ++ [call])).active.mode ≠ .none) :
    ∃ earlier confirming, calls ++ [call] = earlier ++ confirming ∧
      confirming.length = serverOffsetConfirmations ∧
      (∀ c ∈ confirming, c.Proposes call.zone (after (calls ++ [call])).active) ∧
      ∀ part, part ≠ [] → part <+: confirming → part ≠ confirming →
        (after (earlier ++ part)).active = (after calls).active := by
  by_cases hmanual : call.zone = manualZone
  · -- the manual zone leaves nothing active
    refine absurd ?_ hmode
    rw [after_concat, update_manual hmanual]
    simp [ServerOffsetTracker.enter, hmanual, clear]
  · have hwf := (wellFormed_after calls).enter call.zone
    have hafter : after (calls ++ [call]) =
        (((after calls).enter call.zone).learn call.judgement).1 := by
      rw [after_concat, update_fst hmanual]
    -- a zone just entered has nothing active, and its first judgement activates nothing
    have hentered : (after calls).enter call.zone = after calls := by
      rcases enter_cases (after calls) call.zone with ⟨-, henter⟩ | ⟨-, henter⟩
      · exact henter
      · refine absurd ?_ hmode
        rw [hafter, henter]
        have hfirst := learn_of_count_zero { (after calls).clear with zone := call.zone }
          call.judgement rfl rfl judgeServerOffset_proposed_mode
        rw [hfirst.2]
    rw [hentered] at hafter hwf
    rcases learn_cases (after calls) call.judgement with ⟨-, -, hlearn⟩ | ⟨-, -, hlearn⟩ |
      ⟨hkind, -, ⟨-, hlearn⟩ | ⟨hcount, hlearn⟩⟩
    · exact absurd (by rw [hafter, hlearn]; rfl) hne
    · exact absurd (by rw [hafter, hlearn]; rfl) hmode
    · exact absurd (by rw [hafter, hlearn]) hne
    · have hzone : (after calls).zone = call.zone := by
        rw [← hentered]
        simp
      have hcall : call.Proposes (after calls).zone call.judgement.proposed :=
        ⟨hzone.symm, by rwa [hzone], hkind, rfl⟩
      obtain ⟨earlier, recent, hcalls, hlength, hproposes, hactive⟩ :=
        (recent_after calls).propose hcall
      have hnew : (after (calls ++ [call])).active = call.judgement.proposed := by
        rw [hafter, hlearn]
        rfl
      refine ⟨earlier, recent ++ [call], by rw [hcalls, List.append_assoc], ?_, ?_, ?_⟩
      · have hbound : (after calls).counted call.judgement.proposed ≤ serverOffsetConfirmations := by
          have hlt := hwf.count_lt
          unfold counted
          split <;> omega
        omega
      · rw [hnew, ← hzone]
        exact hproposes
      · intro part hpart hpre hproper
        rcases List.prefix_concat_iff.mp hpre with heq | hpre
        · exact absurd heq hproper
        · exact hactive part hpart hpre

/-- Once a call proposed the override, it is active, or pending with `count` of them counted. -/
def Confirming (zone : ByteString) (ov : ServerOffsetOverride) (count : Nat)
    (tracker : ServerOffsetTracker) : Prop :=
  0 < count → tracker.zone = zone ∧
    (tracker.active = ov ∨ tracker.pending = ov ∧ count ≤ tracker.pendingCount)

theorem Confirming.enter {zone : ByteString} {ov : ServerOffsetOverride} {count : Nat}
    {tracker : ServerOffsetTracker} (h : Confirming zone ov count tracker)
    (hmanual : zone ≠ manualZone) : Confirming zone ov count (tracker.enter zone) := by
  intro hpos
  obtain ⟨hzone, hov⟩ := h hpos
  rcases enter_cases tracker zone with ⟨-, henter⟩ | ⟨hother, -⟩
  · rw [henter]
    exact ⟨hzone, hov⟩
  · grind

/-- One more proposal. -/
theorem Confirming.update {zone : ByteString} {ov : ServerOffsetOverride} {count : Nat}
    {tracker : ServerOffsetTracker} {call : OffsetCall} (h : Confirming zone ov count tracker)
    (hcall : call.Proposes zone ov) : Confirming zone ov (count + 1) (tracker.update call).1 := by
  obtain ⟨rfl, hmanual, hkind, rfl⟩ := hcall
  have hentered := h.enter hmanual
  have hzone := tracker.enter_zone call.zone
  rw [update_fst hmanual]
  rcases learn_cases (tracker.enter call.zone) call.judgement with ⟨hsame, -, hlearn⟩ |
    ⟨hagrees, -, -⟩ | ⟨-, hactive, ⟨-, hlearn⟩ | ⟨-, hlearn⟩⟩
  · rw [hlearn]
    exact fun _ => ⟨hzone, .inl (hsame hkind).symm⟩
  · exact absurd (hkind.symm.trans hagrees) nofun
  · rw [hlearn]
    refine fun _ => ⟨hzone, .inr ⟨rfl, ?_⟩⟩
    have hpos := (tracker.enter call.zone).counted_pos call.judgement.proposed
    rcases Nat.eq_zero_or_pos count with rfl | hcount
    · exact hpos
    · obtain ⟨-, heq | ⟨heq, hle⟩⟩ := hentered hcount
      · exact absurd heq.symm hactive
      · rw [counted, if_pos heq.symm]
        exact Nat.succ_le_succ hle
  · rw [hlearn]
    exact fun _ => ⟨hzone, .inl rfl⟩

/-- **Proposals that follow each other make their override active**, when they are as many
as it takes. -/
theorem active_of_proposes (earlier : List OffsetCall) {confirming : List OffsetCall}
    {zone : ByteString} {ov : ServerOffsetOverride}
    (hlength : confirming.length = serverOffsetConfirmations)
    (hproposes : ∀ call ∈ confirming, call.Proposes zone ov) :
    (after (earlier ++ confirming)).active = ov := by
  have hconfirming : Confirming zone ov confirming.length (after (earlier ++ confirming)) := by
    clear hlength
    induction confirming using List.reverseRecOn with
    | nil => exact nofun
    | append_singleton confirming call ih =>
        have hcounted := (ih fun c hc => hproposes c (List.mem_append_left _ hc)).update
          (hproposes call (by simp))
        rw [List.length_append, List.length_singleton]
        rwa [← after_concat, List.append_assoc] at hcounted
  have hlt := (wellFormed_after (earlier ++ confirming)).count_lt
  obtain ⟨-, hactive | ⟨-, hle⟩⟩ := hconfirming (by rw [hlength]; decide)
  · exact hactive
  · omega

/-- Entering another zone, or the manual one, empties the tracker. -/
theorem active_of_entered (calls : List OffsetCall) {call : OffsetCall}
    (h : call.zone = manualZone ∨ call.zone ≠ (after calls).zone) :
    (after (calls ++ [call])).active = {} := by
  have henter : ((after calls).enter call.zone) = { (after calls).clear with zone := call.zone } :=
    if_pos h
  rw [after_concat]
  by_cases hmanual : call.zone = manualZone
  · rw [update_manual hmanual, henter]
    rfl
  · rw [update_fst hmanual, henter]
    exact (learn_of_count_zero _ _ rfl rfl judgeServerOffset_proposed_mode).2

/-- An agreement contradicts the override it rules out. -/
theorem contradicted_iff {active : ServerOffsetOverride} {call : OffsetCall}
    (hkind : call.judgement.kind = .agrees) :
    active.contradicted call.judgement = true ↔
      (active.mode = .legacyZoneData ∧ call.judgement.legacyKind = .disagrees) ∨
        (active.mode = .constantDelta ∧ call.AgreesAt active.tableOffsetMinutes) := by
  cases hmode : active.mode with
  | none => simp [ServerOffsetOverride.contradicted, hmode]
  | legacyZoneData => simp [ServerOffsetOverride.contradicted, hmode]
  | constantDelta =>
      simp [ServerOffsetOverride.contradicted, hmode, OffsetCall.mem_agreeingTableOffsets, hkind]

/-- **What clears the active override**: the manual zone, a change of zone, and an agreement
that contradicts it. -/
theorem mode_none_iff {calls : List OffsetCall} {call : OffsetCall}
    (hbefore : (after calls).active.mode ≠ .none) :
    (after (calls ++ [call])).active.mode = .none ↔
      call.zone = manualZone ∨ call.zone ≠ (after calls).zone ∨
        (call.judgement.kind = .agrees ∧
          (((after calls).active.mode = .legacyZoneData ∧
              call.judgement.legacyKind = .disagrees) ∨
            ((after calls).active.mode = .constantDelta ∧
              call.AgreesAt (after calls).active.tableOffsetMinutes))) := by
  by_cases hentered : call.zone = manualZone ∨ call.zone ≠ (after calls).zone
  · have hmode : (after (calls ++ [call])).active.mode = .none := by
      rw [active_of_entered calls hentered]
    exact ⟨fun _ => hentered.imp_right .inl, fun _ => hmode⟩
  · obtain ⟨hmanual, hzone⟩ := not_or.mp hentered
    rw [or_iff_right hmanual, or_iff_right hzone, after_concat, update_fst hmanual,
      ServerOffsetTracker.enter, if_neg hentered]
    rcases learn_cases (after calls) call.judgement with ⟨-, hagrees, hlearn⟩ |
      ⟨hkind, hcontradicted, hlearn⟩ | ⟨hkind, -, ⟨-, hlearn⟩ | ⟨-, hlearn⟩⟩
    · rw [hlearn]
      refine ⟨fun hnone => absurd hnone hbefore, fun ⟨hkind, hcontradicts⟩ => ?_⟩
      have hcontradicted := (contradicted_iff hkind).mpr hcontradicts
      exact absurd (hcontradicted.symm.trans (hagrees hkind)) nofun
    · rw [hlearn]
      exact ⟨fun _ => ⟨hkind, (contradicted_iff hkind).mp hcontradicted⟩, fun _ => rfl⟩
    · rw [hlearn]
      exact ⟨fun hnone => absurd hnone hbefore,
        fun ⟨hagrees, _⟩ => absurd (hkind.symm.trans hagrees) nofun⟩
    · rw [hlearn]
      exact ⟨fun hnone => absurd hnone (judgeServerOffset_proposed_mode hkind),
        fun ⟨hagrees, _⟩ => absurd (hkind.symm.trans hagrees) nofun⟩

end ServerOffsetTracker

open ServerOffsetTracker in
/-- The runs of the tracker: what activates an override, what clears it, the
bounds on the pending one, and what each call returns. -/
theorem server_offset_tracker (calls : List OffsetCall) (call : OffsetCall) :
    ((after (calls ++ [call])).active ≠ (after calls).active →
      (after (calls ++ [call])).active.mode ≠ .none →
      ∃ earlier confirming, calls ++ [call] = earlier ++ confirming ∧
        confirming.length = serverOffsetConfirmations ∧
        (∀ c ∈ confirming, c.Proposes call.zone (after (calls ++ [call])).active) ∧
        ∀ part, part ≠ [] → part <+: confirming → part ≠ confirming →
          (after (earlier ++ part)).active = (after calls).active) ∧
    ((after calls).active.mode ≠ .none → (after (calls ++ [call])).active.mode = .none →
      call.zone = manualZone ∨ call.zone ≠ (after calls).zone ∨
        (call.judgement.kind = .agrees ∧
          (((after calls).active.mode = .legacyZoneData ∧
              call.judgement.legacyKind = .disagrees) ∨
            ((after calls).active.mode = .constantDelta ∧
              call.AgreesAt (after calls).active.tableOffsetMinutes)))) ∧
    (after calls).pendingCount < serverOffsetConfirmations ∧
    (0 < (after calls).pendingCount → (after calls).pending ≠ (after calls).active) ∧
    ((after calls).pendingCount = 0 ↔ (after calls).pending.mode = .none) ∧
    ((after calls).update call).2 =
      changeBetween (after calls).active (after (calls ++ [call])).active := by
  have hwf := wellFormed_after calls
  refine ⟨confirmed_of_active_ne, fun hbefore => (mode_none_iff hbefore).mp, hwf.count_lt,
    hwf.pending_ne, ⟨?_, ?_⟩, ?_⟩
  · intro hzero
    rw [hwf.pending_none hzero]
  · intro hnone
    have hpos : ¬ 0 < (after calls).pendingCount := fun hpos => hwf.pending_mode hpos hnone
    omega
  · rw [after_concat]
    exact update_snd hwf call

end DispatcharrPvr
