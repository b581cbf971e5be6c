import DispatcharrPvr.GuideCaches

/-!
# GuideCaches.Coherence

What holds of the channel list and the guide in every run.

* A guide in hand was fetched after the last detected renumbering, because the
  renumbering clears the guide and raises the generation that a commit asks for.
* A fetch that serves a follow-up began at or after it, and while the due time
  is still the one it saw, every guide event and renumbering so far lies
  `kGuideRefetchAfterRefreshEvent` before the fetch (`Serves`).
* A channel list fetched before the last M3U refresh event is stale.

The first two speak of fetches under way as well as of the caches, and the mutex
of the guide fetch says that only one of them can clear the due time.
-/

namespace DispatcharrPvr

open Runs

theorem kGuideRefetchAfterRefreshEvent_pos : 0 < kGuideRefetchAfterRefreshEvent := by decide

/-- The follow-up lies at least the event's window after it, and a scheduled
one does not move to an earlier time. -/
theorem scheduleGuideRefetchForEvent_spec (currentDueAt now : Int) :
    now + kGuideRefetchAfterRefreshEvent ≤ scheduleGuideRefetchForEvent currentDueAt now ∧
      (currentDueAt ≠ 0 → currentDueAt ≤ scheduleGuideRefetchForEvent currentDueAt now) := by
  unfold scheduleGuideRefetchForEvent
  dsimp only
  split
  · next h => exact ⟨h.2, fun _ => Int.le_refl _⟩
  · next h => exact ⟨Int.le_refl _, fun hset => by omega⟩

/-- The follow-up is either the one that was scheduled or the event's own. -/
theorem scheduleGuideRefetchForEvent_le {currentDueAt now bound : Int} (hdue : currentDueAt ≤ bound)
    (hnow : now + kGuideRefetchAfterRefreshEvent ≤ bound) :
    scheduleGuideRefetchForEvent currentDueAt now ≤ bound := by
  unfold scheduleGuideRefetchForEvent
  dsimp only
  split
  · exact hdue
  · exact hnow

namespace GuideCaches

variable {Thread Guide : Type} {c : RefreshSettings} {s s' : GuideCaches Thread Guide}

/-! ## the fetches under way -/

/-- What a channel fetch holds is no newer than the channel list. -/
def ChannelSound (s : GuideCaches Thread Guide) : ChannelLoad → Prop
  | .admitted generation => generation ≤ s.channelsGeneration
  | .fetching generation beganAt | .fetched generation beganAt _ =>
      generation ≤ s.channelsGeneration ∧
        (generation = s.channelsGeneration → s.channelsSyncedAt < beganAt)
  | .idle | .entered _ _ | .gated _ _ | .locked _ _ | .returned _ => True

/-- A fetch that serves what it has seen goes out at `bound` or later, at or
after the due time; and while that is still the due time, `bound` is past the
window of every guide event and renumbering. -/
def Serves (s : GuideCaches Thread Guide) (seen : SeenRefetch) (bound : Int) : Prop :=
  seen.serving = true →
    0 < seen.dueAt ∧ seen.dueAt ≤ bound ∧ seen.dueAt ≤ s.epgRefetchDueAt ∧
      (s.epgRefetchDueAt = seen.dueAt →
        ∀ r ∈ s.guideEvents, r + kGuideRefetchAfterRefreshEvent ≤ bound)

/-- What a guide fetch of thread `t` holds. -/
def GuideSound (s : GuideCaches Thread Guide) (t : Thread) : GuideLoad → Prop
  | .idle => True
  | .entered now | .gated now => now ≤ s.now
  | .locked now => s.epgFetchMutex = some t ∧ now ≤ s.now
  | .admitted _ seen | .refreshing seen | .refreshed seen =>
      s.epgFetchMutex = some t ∧ s.Serves seen s.now
  | .starting seen generation =>
      s.epgFetchMutex = some t ∧ s.Serves seen s.now ∧ generation ≤ s.epgGeneration
  | .fetching seen generation beganAt began =>
      s.epgFetchMutex = some t ∧ s.Serves seen began ∧ began ≤ s.now ∧
        generation ≤ s.epgGeneration ∧
          (generation = s.epgGeneration → s.renumberedAt < beganAt)

/-- What holds in every state of a run. -/
structure Inv (c : RefreshSettings) (s : GuideCaches Thread Guide) : Prop where
  now_nonneg : 0 ≤ s.now
  channelLoads : ∀ t, s.ChannelSound (s.channelLoad t)
  guideLoads : ∀ t, s.GuideSound t (s.guideLoad t)
  handling : ∀ t kind r, s.handling t = some (kind, r) → 0 ≤ r ∧ r ≤ s.now
  due_nonneg : 0 ≤ s.epgRefetchDueAt
  due_le : s.epgRefetchDueAt ≤ s.now + kGuideRefetchAfterRefreshEvent
  /-- Every event waits for a follow-up past its window, or its window is over. -/
  covered : ∀ r ∈ s.guideEvents, r + kGuideRefetchAfterRefreshEvent ≤ s.epgRefetchDueAt ∨
    r + kGuideRefetchAfterRefreshEvent ≤ s.now
  renumberedAt_le : s.renumberedAt ≤ s.steps
  channelsSyncedAt_le : s.channelsSyncedAt ≤ s.steps
  guide : s.epgByChannelNumber.isSome → s.renumberedAt < s.guideBeganAt
  channels : s.channelsBeganAt ≤ s.channelsSyncedAt →
    isStaleSince s.channelsLoadedAt s.now c.channelInterval = true

/-! ### what a step of the world leaves of them -/

theorem ChannelSound.later {load : ChannelLoad} (h : s.ChannelSound load)
    (hlater : (s'.channelsGeneration = s.channelsGeneration ∧
      s'.channelsSyncedAt = s.channelsSyncedAt) ∨ s.channelsGeneration < s'.channelsGeneration) :
    s'.ChannelSound load := by
  cases load with
  | idle => trivial
  | entered now forceStale => trivial
  | gated now forceStale => trivial
  | locked now forceStale => trivial
  | admitted generation => simp only [ChannelSound] at h ⊢; omega
  | fetching generation beganAt =>
      obtain ⟨hle, hbegan⟩ := h
      refine ⟨by omega, fun heq => ?_⟩
      have := hbegan (by omega)
      omega
  | fetched generation beganAt channels =>
      obtain ⟨hle, hbegan⟩ := h
      refine ⟨by omega, fun heq => ?_⟩
      have := hbegan (by omega)
      omega
  | returned result => trivial

theorem Serves.mono {seen : SeenRefetch} {bound later : Int} (h : s.Serves seen bound)
    (hle : bound ≤ later) : s.Serves seen later := by
  intro hserving
  obtain ⟨hpos, hdue, hle', hevents⟩ := h hserving
  exact ⟨hpos, by omega, hle', fun heq r hr => Int.le_trans (hevents heq r hr) hle⟩

/-- Every fetch that serves a follow-up in `s` serves it in `s'`. -/
def ServesKept (s s' : GuideCaches Thread Guide) : Prop :=
  ∀ seen bound, bound ≤ s.now → s.Serves seen bound → s'.Serves seen bound

theorem servesKept_of_eq (hdue : s'.epgRefetchDueAt = s.epgRefetchDueAt)
    (hevents : s'.guideEvents = s.guideEvents) : ServesKept s s' := by
  intro seen bound _ h
  simpa only [Serves, hdue, hevents] using h

/-- A guide event moves the due time out, if at all. -/
theorem servesKept_schedule {now : Int}
    (hdue : s'.epgRefetchDueAt = scheduleGuideRefetchForEvent s.epgRefetchDueAt now)
    (hevents : s'.guideEvents = now :: s.guideEvents) : ServesKept s s' := by
  intro seen bound _ h hserving
  obtain ⟨hpos, hbound, hle, hcovered⟩ := h hserving
  obtain ⟨hown, hkept⟩ := scheduleGuideRefetchForEvent_spec s.epgRefetchDueAt now
  have hmoved := hkept (by omega)
  refine ⟨hpos, hbound, by omega, fun heq r hr => ?_⟩
  rw [hdue] at heq
  rw [hevents, List.mem_cons] at hr
  rcases hr with rfl | hr
  · omega
  · exact hcovered (by omega) r hr

/-- A renumbering moves the due time past what any fetch has seen. -/
theorem servesKept_renumbered
    (hdue : s'.epgRefetchDueAt = s.now + kGuideRefetchAfterRefreshEvent) : ServesKept s s' := by
  intro seen bound hnow h hserving
  obtain ⟨hpos, hbound, -, -⟩ := h hserving
  have := kGuideRefetchAfterRefreshEvent_pos
  exact ⟨hpos, hbound, by omega, fun heq => by omega⟩

/-- A step keeps what a guide fetch holds, if it keeps the mutex of the one
that has it and what that one serves. -/
theorem GuideSound.later {t : Thread} {load : GuideLoad} (h : s.GuideSound t load)
    (hnow : s.now ≤ s'.now)
    (hlater : (s'.epgGeneration = s.epgGeneration ∧ s'.renumberedAt = s.renumberedAt) ∨
      s.epgGeneration < s'.epgGeneration)
    (hkept : s.epgFetchMutex = some t → s'.epgFetchMutex = some t ∧ ServesKept s s') :
    s'.GuideSound t load := by
  cases load with
  | idle => trivial
  | entered now => exact Int.le_trans h hnow
  | gated now => exact Int.le_trans h hnow
  | locked now => exact ⟨(hkept h.1).1, Int.le_trans h.2 hnow⟩
  | admitted now seen =>
      exact ⟨(hkept h.1).1, ((hkept h.1).2 _ _ (Int.le_refl _) h.2).mono hnow⟩
  | refreshing seen =>
      exact ⟨(hkept h.1).1, ((hkept h.1).2 _ _ (Int.le_refl _) h.2).mono hnow⟩
  | refreshed seen =>
      exact ⟨(hkept h.1).1, ((hkept h.1).2 _ _ (Int.le_refl _) h.2).mono hnow⟩
  | starting seen generation =>
      obtain ⟨hmutex, hserves, hle⟩ := h
      exact ⟨(hkept hmutex).1, ((hkept hmutex).2 _ _ (Int.le_refl _) hserves).mono hnow, by omega⟩
  | fetching seen generation beganAt began =>
      obtain ⟨hmutex, hserves, hbegan, hle, hafter⟩ := h
      refine ⟨(hkept hmutex).1, (hkept hmutex).2 _ _ hbegan hserves, by omega, by omega,
        fun heq => ?_⟩
      have := hafter (by omega)
      omega

/-! ### steps that leave the caches alone -/

/-- The steps of one thread's own progress, and of the clock. -/
structure Quiet (s s' : GuideCaches Thread Guide) : Prop where
  now_le : s.now ≤ s'.now
  steps_le : s.steps ≤ s'.steps
  channelsLoadedAt : s'.channelsLoadedAt = s.channelsLoadedAt
  channelsGeneration : s'.channelsGeneration = s.channelsGeneration
  epgByChannelNumber : s'.epgByChannelNumber = s.epgByChannelNumber
  epgGeneration : s'.epgGeneration = s.epgGeneration
  epgRefetchDueAt : s'.epgRefetchDueAt = s.epgRefetchDueAt
  channelsBeganAt : s'.channelsBeganAt = s.channelsBeganAt
  guideBeganAt : s'.guideBeganAt = s.guideBeganAt
  renumberedAt : s'.renumberedAt = s.renumberedAt
  channelsSyncedAt : s'.channelsSyncedAt = s.channelsSyncedAt
  guideEvents : s'.guideEvents = s.guideEvents

/-- A quiet step keeps the invariant, if what the threads hold behind it is
sound. -/
theorem Inv.quiet (h : s.Inv c) (hquiet : Quiet s s')
    (hchannels : ∀ t, s'.ChannelSound (s'.channelLoad t))
    (hguides : ∀ t, s'.GuideSound t (s'.guideLoad t))
    (hhandling : ∀ t kind r, s'.handling t = some (kind, r) → 0 ≤ r ∧ r ≤ s'.now) : s'.Inv c where
  now_nonneg := Int.le_trans h.now_nonneg hquiet.now_le
  channelLoads := hchannels
  guideLoads := hguides
  handling := hhandling
  due_nonneg := hquiet.epgRefetchDueAt ▸ h.due_nonneg
  due_le := by
    have := h.due_le
    have := hquiet.now_le
    rw [hquiet.epgRefetchDueAt]
    omega
  covered r hr := by
    rw [hquiet.guideEvents] at hr
    rw [hquiet.epgRefetchDueAt]
    exact (h.covered r hr).imp_right fun hle => Int.le_trans hle hquiet.now_le
  renumberedAt_le := hquiet.renumberedAt ▸ Nat.le_trans h.renumberedAt_le hquiet.steps_le
  channelsSyncedAt_le := hquiet.channelsSyncedAt ▸ Nat.le_trans h.channelsSyncedAt_le hquiet.steps_le
  guide := by
    rw [hquiet.epgByChannelNumber, hquiet.renumberedAt, hquiet.guideBeganAt]
    exact h.guide
  channels := by
    rw [hquiet.channelsBeganAt, hquiet.channelsSyncedAt, hquiet.channelsLoadedAt]
    exact fun hbefore => isStaleSince_mono hquiet.now_le (h.channels hbefore)

variable [DecidableEq Thread]

/-- What is said of every slot and of a thread's new one is said of every slot
after it is set. -/
theorem forall_setAt {α : Type} {P : Thread → α → Prop} {slots : Thread → α} {t : Thread}
    {value : α} (h : ∀ t', t' ≠ t → P t' (slots t')) (hvalue : P t value) :
    ∀ t', P t' (setAt slots t value t') := by
  intro t'
  by_cases heq : t' = t
  · subst heq; simpa [setAt] using hvalue
  · simpa [setAt, heq] using h t' heq

section Moves

variable {t : Thread}

omit [DecidableEq Thread] in
/-- What a thread holds where it is in its channel fetch. -/
theorem Inv.channelSound (h : s.Inv c) {load : ChannelLoad} (hload : s.channelLoad t = load) :
    s.ChannelSound load :=
  hload ▸ h.channelLoads t

omit [DecidableEq Thread] in
/-- What a thread holds where it is in its guide fetch. -/
theorem Inv.guideSound (h : s.Inv c) {load : GuideLoad} (hload : s.guideLoad t = load) :
    s.GuideSound t load :=
  hload ▸ h.guideLoads t

/-- A thread moves on in `EnsureChannelsLoaded`. -/
theorem Inv.setChannelLoad (h : s.Inv c) (load : ChannelLoad) (hsound : s.ChannelSound load) :
    (s.setChannelLoad t load).Inv c :=
  h.quiet (by constructor <;> simp [GuideCaches.setChannelLoad])
    (forall_setAt (fun t' _ => h.channelLoads t') hsound) h.guideLoads h.handling

/-- A thread moves on in `EnsureEpgLoaded`. -/
theorem Inv.setGuideLoad (h : s.Inv c) (load : GuideLoad) (hsound : s.GuideSound t load) :
    (s.setGuideLoad t load).Inv c :=
  h.quiet (by constructor <;> simp [GuideCaches.setGuideLoad])
    h.channelLoads (forall_setAt (fun t' _ => h.guideLoads t') hsound) h.handling

omit [DecidableEq Thread] in
/-- The channel fetch mutex guards nothing the invariant speaks of. -/
theorem Inv.channelsFetchMutex (h : s.Inv c) (owner : Option Thread) :
    ({ s with channelsFetchMutex := owner } : GuideCaches Thread Guide).Inv c :=
  h.quiet (by constructor <;> simp)
    h.channelLoads h.guideLoads h.handling

omit [DecidableEq Thread] in
/-- Failures are only for the gates. -/
theorem Inv.failures (h : s.Inv c) (channelsLastFailedAt groupsLastFailedAt epgLastFailedAt : Int)
    (epgDurableFailureCount : Nat) :
    ({ s with channelsLastFailedAt, groupsLastFailedAt, epgLastFailedAt, epgDurableFailureCount } :
      GuideCaches Thread Guide).Inv c :=
  h.quiet (by constructor <;> simp)
    h.channelLoads h.guideLoads h.handling

theorem Inv.channelsReturns (h : s.Inv c) {result : Bool} : (s.channelsReturns t result).Inv c :=
  (h.setChannelLoad (.returned result) trivial).channelsFetchMutex none

/-- A thread that finds the guide mutex free takes it. -/
theorem Inv.lockGuide (h : s.Inv c) (hfree : s.epgFetchMutex = none) {now : Int}
    (hnow : now ≤ s.now) :
    ({ s.setGuideLoad t (.locked now) with epgFetchMutex := some t } :
      GuideCaches Thread Guide).Inv c := by
  refine h.quiet (by constructor <;> simp [GuideCaches.setGuideLoad])
    h.channelLoads (forall_setAt (fun t' _ => ?_) ⟨rfl, hnow⟩) h.handling
  refine (h.guideLoads t').later (Int.le_refl _) (.inl ⟨rfl, rfl⟩) fun hheld => ?_
  rw [hfree] at hheld
  contradiction

/-- The guide fetch that has the mutex returns. -/
theorem Inv.guideReturns (h : s.Inv c) (hheld : s.epgFetchMutex = some t) :
    (s.guideReturns t).Inv c := by
  refine h.quiet (by constructor <;> simp [GuideCaches.guideReturns, GuideCaches.setGuideLoad])
    h.channelLoads (forall_setAt (fun t' hne => ?_) trivial) h.handling
  refine (h.guideLoads t').later (Int.le_refl _) (.inl ⟨rfl, rfl⟩) fun hother => ?_
  rw [hheld, Option.some.injEq] at hother
  exact absurd hother.symm hne

omit [DecidableEq Thread] in
theorem Inv.clock (h : s.Inv c) (elapsed : Nat) :
    ({ s with now := s.now + elapsed } : GuideCaches Thread Guide).Inv c := by
  have hle : s.now ≤ s.now + elapsed := by omega
  refine h.quiet (by constructor <;> simp [hle])
    h.channelLoads (fun t => ?_) fun t kind r hr => ?_
  · exact (h.guideLoads t).later hle (.inl ⟨rfl, rfl⟩)
      fun hheld => ⟨hheld, servesKept_of_eq rfl rfl⟩
  · obtain ⟨hnonneg, hpast⟩ := h.handling t kind r hr
    exact ⟨hnonneg, Int.le_trans hpast hle⟩

omit [DecidableEq Thread] in
/-- A fetch at its second gate serves what is due at its entry. -/
theorem Inv.serves_seen (h : s.Inv c) {now : Int} (hnow : now ≤ s.now) :
    s.Serves ⟨s.epgRefetchDueAt, isGuideRefetchDue s.epgRefetchDueAt now⟩ s.now := by
  intro hserving
  obtain ⟨hset, hdue⟩ := isGuideRefetchDue_iff.mp hserving
  dsimp only at hset hdue ⊢
  have := h.due_nonneg
  refine ⟨by omega, by omega, Int.le_refl _, fun _ r hr => ?_⟩
  rcases h.covered r hr with hle | hle
  · omega
  · exact hle

omit [DecidableEq Thread] in
theorem Inv.next (h : s.Inv c) {n : Nat} (hle : s.steps ≤ n) :
    ({ s with steps := n } : GuideCaches Thread Guide).Inv c :=
  h.quiet (by constructor <;> simp [hle])
    h.channelLoads h.guideLoads h.handling

end Moves

/-! ### the commits and the events -/

section Commits

variable {t : Thread}

omit [DecidableEq Thread] in
/-- A channel list is stamped fresh only by a fetch that began after the last
M3U refresh event. -/
theorem Inv.commitChannels (h : s.Inv c) (groupsOk : Bool) {generation beganAt : Nat}
    {channels : List GuideChannel} (hsound : s.ChannelSound (.fetched generation beganAt channels)) :
    ({ s with
      channels
      channelsBeganAt := beganAt
      channelsLoadedAt :=
        if isFetchStillCurrent generation s.channelsGeneration then s.now
        else markStaleForWake s.now s.now c.channelInterval
      channelsLastFailedAt := 0
      groupsLastFailedAt := if groupsOk then 0 else s.now } : GuideCaches Thread Guide).Inv c where
  now_nonneg := h.now_nonneg
  channelLoads := h.channelLoads
  guideLoads := h.guideLoads
  handling := h.handling
  due_nonneg := h.due_nonneg
  due_le := h.due_le
  covered := h.covered
  renumberedAt_le := h.renumberedAt_le
  channelsSyncedAt_le := h.channelsSyncedAt_le
  guide := h.guide
  channels hbefore := by
    have hold : ¬ generation = s.channelsGeneration := fun heq =>
      absurd (hsound.2 heq) (Nat.not_lt.mpr hbefore)
    simp only [isFetchStillCurrent, beq_iff_eq, if_neg hold]
    exact isStaleSince_markStaleForWake (Int.le_refl _)

omit [DecidableEq Thread] in
/-- A detected renumbering takes the guide and schedules a follow-up. -/
theorem Inv.renumbered (h : s.Inv c) :
    ({ s.renumbered with steps := s.steps + 1 } : GuideCaches Thread Guide).Inv c where
  now_nonneg := h.now_nonneg
  channelLoads := h.channelLoads
  guideLoads t := (h.guideLoads t).later (Int.le_refl _) (.inr (Nat.lt_succ_self _))
    fun hheld => ⟨hheld, servesKept_renumbered rfl⟩
  handling := h.handling
  due_nonneg := by
    have := h.now_nonneg
    have := kGuideRefetchAfterRefreshEvent_pos
    change 0 ≤ s.now + kGuideRefetchAfterRefreshEvent
    omega
  due_le := Int.le_refl _
  covered r hr := by
    change r + kGuideRefetchAfterRefreshEvent ≤ s.now + kGuideRefetchAfterRefreshEvent ∨ _
    rcases List.mem_cons.mp hr with rfl | hr
    · exact .inl (Int.le_refl _)
    · have := h.due_le
      exact (h.covered r hr).imp_left fun hle => by omega
  renumberedAt_le := Nat.le_refl _
  channelsSyncedAt_le := Nat.le_succ_of_le h.channelsSyncedAt_le
  guide := fun hsome => by cases hsome
  channels := h.channels

/-- The commit of a guide fetch, with the return behind it. -/
theorem Inv.commitGuide (h : s.Inv c) {seen : SeenRefetch} {generation beganAt : Nat} {began : Int}
    (hsound : s.GuideSound t (.fetching seen generation beganAt began))
    (hcurrent : generation = s.epgGeneration) {parsed : Guide} :
    ((s.commitGuide seen beganAt parsed).guideReturns t).Inv c := by
  obtain ⟨hheld, hserves, hbegan, -, hafter⟩ := hsound
  have hothers : ∀ t', t' ≠ t → s.epgFetchMutex ≠ some t' := by
    rw [hheld]
    exact fun t' hne heq => hne (Option.some.inj heq).symm
  have hdue : ∀ due, due = ((s.commitGuide seen beganAt parsed).guideReturns t).epgRefetchDueAt →
      due = s.epgRefetchDueAt ∨
        (due = 0 ∧ seen.serving = true ∧ s.epgRefetchDueAt = seen.dueAt) := by
    rintro due rfl
    simp only [GuideCaches.guideReturns, GuideCaches.setGuideLoad, GuideCaches.commitGuide]
    split
    · next hcleared =>
        simp only [Bool.and_eq_true, beq_iff_eq] at hcleared
        exact .inr ⟨rfl, hcleared⟩
    · exact .inl rfl
  have hcases := hdue _ rfl
  exact {
    now_nonneg := h.now_nonneg
    channelLoads := h.channelLoads
    guideLoads := forall_setAt (fun t' hne => (h.guideLoads t').later (Int.le_refl _)
      (.inl ⟨rfl, rfl⟩) fun hheld' => absurd hheld' (hothers t' hne)) trivial
    handling := h.handling
    due_nonneg := by
      have := h.due_nonneg
      rcases hcases with heq | ⟨heq, -⟩ <;> omega
    due_le := by
      have := h.due_le
      have := h.now_nonneg
      have := kGuideRefetchAfterRefreshEvent_pos
      change _ ≤ s.now + kGuideRefetchAfterRefreshEvent
      rcases hcases with heq | ⟨heq, -⟩ <;> omega
    covered := fun r hr => by
      rcases hcases with heq | ⟨-, hserving, hsame⟩
      · rw [heq]
        exact h.covered r hr
      · exact .inr (Int.le_trans ((hserves hserving).2.2.2 hsame r hr) hbegan)
    renumberedAt_le := h.renumberedAt_le
    channelsSyncedAt_le := h.channelsSyncedAt_le
    guide := fun _ => hafter hcurrent
    channels := h.channels }

/-- A handler takes an event, or is done with it. -/
theorem Inv.setHandling (h : s.Inv c) (event : Option (RefreshEventKind × Int))
    (hevent : ∀ kind r, event = some (kind, r) → 0 ≤ r ∧ r ≤ s.now) :
    ({ s with handling := setAt s.handling t event } : GuideCaches Thread Guide).Inv c := by
  refine h.quiet (by constructor <;> simp)
    h.channelLoads h.guideLoads ?_
  exact forall_setAt (P := fun _ event => ∀ kind r, event = some (kind, r) → 0 ≤ r ∧ r ≤ s.now)
    (fun t' _ => h.handling t') hevent

omit [DecidableEq Thread] in
/-- A guide event schedules a follow-up of its own, or leaves a later one. -/
theorem Inv.guideParsed (h : s.Inv c) {now : Int} (hnow : 0 ≤ now ∧ now ≤ s.now) :
    (s.handleRefreshEvent c now .guideParsed).Inv c := by
  obtain ⟨hnonneg, hpast⟩ := hnow
  obtain ⟨hown, hkept⟩ := scheduleGuideRefetchForEvent_spec s.epgRefetchDueAt now
  have hpos := kGuideRefetchAfterRefreshEvent_pos
  have hdue : s.epgRefetchDueAt ≤ scheduleGuideRefetchForEvent s.epgRefetchDueAt now := by
    by_cases hset : s.epgRefetchDueAt = 0
    · omega
    · exact hkept hset
  exact {
    now_nonneg := h.now_nonneg
    channelLoads := h.channelLoads
    guideLoads := fun t' => (h.guideLoads t').later (Int.le_refl _) (.inl ⟨rfl, rfl⟩)
      fun hheld => ⟨hheld, servesKept_schedule rfl rfl⟩
    handling := h.handling
    due_nonneg := Int.le_trans h.due_nonneg hdue
    due_le := scheduleGuideRefetchForEvent_le h.due_le (Int.add_le_add_right hpast _)
    covered := fun r hr => by
      rcases List.mem_cons.mp hr with rfl | hr
      · exact .inl hown
      · exact (h.covered r hr).imp_left fun hle => Int.le_trans hle hdue
    renumberedAt_le := h.renumberedAt_le
    channelsSyncedAt_le := h.channelsSyncedAt_le
    guide := h.guide
    channels := h.channels }

omit [DecidableEq Thread] in
/-- An M3U refresh event ages the channel list in hand, and by its generation
the one being fetched. -/
theorem Inv.channelsSynced (h : s.Inv c) {now : Int} (hpast : now ≤ s.now) :
    ({ s.handleRefreshEvent c now .channelsSynced with steps := s.steps + 1 } :
      GuideCaches Thread Guide).Inv c where
  now_nonneg := h.now_nonneg
  channelLoads t := (h.channelLoads t).later (.inr (Nat.lt_succ_self _))
  guideLoads := h.guideLoads
  handling := h.handling
  due_nonneg := h.due_nonneg
  due_le := h.due_le
  covered := h.covered
  renumberedAt_le := Nat.le_succ_of_le h.renumberedAt_le
  channelsSyncedAt_le := Nat.le_refl _
  guide := h.guide
  channels _ := isStaleSince_markStaleForWake hpast

omit [DecidableEq Thread] in
theorem Inv.systemWake (h : s.Inv c) : (s.systemWake c).Inv c where
  now_nonneg := h.now_nonneg
  channelLoads t := (h.channelLoads t).later (.inr (Nat.lt_succ_self _))
  guideLoads t := (h.guideLoads t).later (Int.le_refl _) (.inr (Nat.lt_succ_self _))
    fun hheld => ⟨hheld, servesKept_of_eq rfl rfl⟩
  handling := h.handling
  due_nonneg := h.due_nonneg
  due_le := h.due_le
  covered := h.covered
  renumberedAt_le := h.renumberedAt_le
  channelsSyncedAt_le := h.channelsSyncedAt_le
  guide := h.guide
  channels _ := isStaleSince_markStaleForWake (Int.le_refl _)

end Commits

/-! ### every step -/

variable {e : GuideEvent Thread Guide}

theorem step_eq_some_iff :
    s.step c e = some s' ↔ ∃ m, s.act c e = some m ∧ s' = { m with steps := s.steps + 1 } := by
  unfold step
  rw [Option.map_eq_some_iff]
  exact exists_congr fun m => and_congr_right fun _ => eq_comm

/-- The second gate of the channels, where another thread may have loaded them. -/
theorem Inv.channelsGateAgain (h : s.Inv c) {t : Thread}
    (hact : s.act c (.channelsGateAgain t) = some s') :
    ({ s' with steps := s.steps + 1 } : GuideCaches Thread Guide).Inv c := by
  simp only [act] at hact
  split at hact
  · split at hact
    · obtain rfl := Option.some.inj hact
      exact h.channelsReturns.next (Nat.le_succ _)
    · split at hact <;> obtain rfl := Option.some.inj hact
      · exact (h.setChannelLoad (.admitted _) (Nat.le_refl _)).next (Nat.le_succ _)
      · exact h.channelsReturns.next (Nat.le_succ _)
  · contradiction

/-- The commit of a channel list may find a renumbering. -/
theorem Inv.channelsCommitted (h : s.Inv c) {t : Thread} {groupsOk : Bool}
    (hact : s.act c (.channelsCommit t groupsOk) = some s') :
    ({ s' with steps := s.steps + 1 } : GuideCaches Thread Guide).Inv c := by
  simp only [act] at hact
  split at hact
  · next generation beganAt channels hload =>
      obtain rfl := Option.some.inj hact
      have hsound := h.channelSound hload
      have hcommitted := h.commitChannels groupsOk hsound
      unfold GuideCaches.commitChannels
      dsimp only
      split
      · exact hcommitted.renumbered.channelsReturns
      · exact (hcommitted.channelsReturns).next (Nat.le_succ _)
  · contradiction

/-- The second gate of the guide, where another thread may have loaded it. -/
theorem Inv.guideGateAgain (h : s.Inv c) {t : Thread}
    (hact : s.act c (.guideGateAgain t) = some s') :
    ({ s' with steps := s.steps + 1 } : GuideCaches Thread Guide).Inv c := by
  simp only [act] at hact
  split at hact
  · next now hload =>
      obtain ⟨hheld, hentered⟩ := h.guideSound hload
      split at hact
      · obtain rfl := Option.some.inj hact
        exact (h.guideReturns hheld).next (Nat.le_succ _)
      · split at hact <;> obtain rfl := Option.some.inj hact
        · have hserves := h.serves_seen hentered
          exact (h.setGuideLoad (.admitted _ _) ⟨hheld, hserves⟩).next (Nat.le_succ _)
        · exact (h.guideReturns hheld).next (Nat.le_succ _)
  · contradiction

/-- The forced refresh of the channels, without which there is no guide. -/
theorem Inv.guideChannelsReturn (h : s.Inv c) {t : Thread}
    (hact : s.act c (.guideChannelsReturn t) = some s') :
    ({ s' with steps := s.steps + 1 } : GuideCaches Thread Guide).Inv c := by
  simp only [act] at hact
  split at hact
  · next seen hload _ =>
      have hsound := h.guideSound hload
      obtain rfl := Option.some.inj hact
      have hidle := h.setChannelLoad (t := t) .idle trivial
      exact (hidle.setGuideLoad (.refreshed _) hsound).next (Nat.le_succ _)
  · next seen hload _ =>
      have hsound := h.guideSound hload
      obtain rfl := Option.some.inj hact
      have hidle := h.setChannelLoad (t := t) .idle trivial
      exact ((hidle.guideReturns hsound.1).failures _ _ _ _).next (Nat.le_succ _)
  · contradiction

/-- The commit of a guide is dropped where the generation has moved on. -/
theorem Inv.guideCommitted (h : s.Inv c) {t : Thread} {parsed : Guide}
    (hact : s.act c (.guideCommit t parsed) = some s') :
    ({ s' with steps := s.steps + 1 } : GuideCaches Thread Guide).Inv c := by
  simp only [act] at hact
  split at hact
  · next seen generation beganAt began hload =>
      have hsound := h.guideSound hload
      split at hact <;> obtain rfl := Option.some.inj hact
      · next hcurrent =>
          have hsame : generation = s.epgGeneration := by simpa [isFetchStillCurrent] using hcurrent
          exact (h.commitGuide hsound hsame).next (Nat.le_succ _)
      · exact (h.guideReturns hsound.1).next (Nat.le_succ _)
  · contradiction

/-- An event handled. -/
theorem Inv.refreshEventHandled (h : s.Inv c) {t : Thread}
    (hact : s.act c (.refreshEventHandled t) = some s') :
    ({ s' with steps := s.steps + 1 } : GuideCaches Thread Guide).Inv c := by
  simp only [act] at hact
  split at hact
  · next kind now hhandling =>
      have hnow := h.handling t kind now hhandling
      obtain rfl := Option.some.inj hact
      cases kind with
      | guideParsed =>
          have hparsed := (h.guideParsed hnow).setHandling (t := t) none fun _ _ hr => by cases hr
          exact hparsed.next (Nat.le_succ _)
      | channelsSynced =>
          exact (h.channelsSynced hnow.2).setHandling none fun _ _ hr => by cases hr
  · contradiction

/-- **Step lemma**: the invariant survives every step. -/
theorem Inv.step (h : s.Inv c) (hstep : s.step c e = some s') : s'.Inv c := by
  obtain ⟨m, hact, rfl⟩ := step_eq_some_iff.mp hstep
  have hnext : s.steps ≤ s.steps + 1 := Nat.le_succ _
  cases e with
  | clock elapsed =>
      rw [act_clock] at hact
      obtain rfl := Option.some.inj hact
      exact (h.clock elapsed).next hnext
  | channelsEnter t =>
      simp only [act] at hact
      split at hact
      · obtain rfl := Option.some.inj hact
        exact (h.setChannelLoad (.entered _ _) trivial).next hnext
      · contradiction
  | channelsGate t =>
      simp only [act] at hact
      split at hact
      · split at hact <;> obtain rfl := Option.some.inj hact
        · exact (h.setChannelLoad (.gated _ _) trivial).next hnext
        · exact (h.setChannelLoad (.returned _) trivial).next hnext
      · contradiction
  | channelsLock t =>
      simp only [act] at hact
      split at hact
      · obtain rfl := Option.some.inj hact
        exact ((h.setChannelLoad (.locked _ _) trivial).channelsFetchMutex (some t)).next
          hnext
      · contradiction
  | channelsGateAgain t => exact h.channelsGateAgain hact
  | channelsRequest t =>
      simp only [act] at hact
      split at hact
      · next generation hload =>
          obtain rfl := Option.some.inj hact
          have hsound := h.channelSound hload
          refine (h.setChannelLoad (.fetching _ _) ⟨hsound, fun _ => ?_⟩).next hnext
          exact Nat.lt_succ_of_le h.channelsSyncedAt_le
      · contradiction
  | channelsAnswer t answer =>
      simp only [act] at hact
      split at hact
      · next generation beganAt channels hload =>
          obtain rfl := Option.some.inj hact
          have hsound := h.channelSound hload
          exact (h.setChannelLoad (.fetched _ _ _) hsound).next hnext
      · obtain rfl := Option.some.inj hact
        exact (h.channelsReturns.failures _ _ _ _).next hnext
      · contradiction
  | channelsCommit t groupsOk => exact h.channelsCommitted hact
  | channelsReturn t =>
      simp only [act] at hact
      split at hact
      · obtain rfl := Option.some.inj hact
        exact (h.setChannelLoad .idle trivial).next hnext
      · contradiction
  | guideEnter t =>
      simp only [act, Option.ite_none_right_eq_some, Option.some.injEq] at hact
      obtain ⟨-, rfl⟩ := hact
      exact (h.setGuideLoad (.entered _) (Int.le_refl _)).next hnext
  | guideGate t =>
      simp only [act] at hact
      split at hact
      · next now hload =>
          have hsound := h.guideSound hload
          split at hact <;> obtain rfl := Option.some.inj hact
          · exact (h.setGuideLoad (.gated _) hsound).next hnext
          · exact (h.setGuideLoad .idle trivial).next hnext
      · contradiction
  | guideLock t =>
      simp only [act] at hact
      split at hact
      · next now hload hfree =>
          have hsound := h.guideSound hload
          obtain rfl := Option.some.inj hact
          exact (h.lockGuide hfree hsound).next hnext
      · contradiction
  | guideGateAgain t => exact h.guideGateAgain hact
  | guideCheckChannels t =>
      simp only [act] at hact
      split at hact
      · next now seen hload =>
          have hsound := h.guideSound hload
          split at hact <;> obtain rfl := Option.some.inj hact
          · exact (h.setGuideLoad (.refreshed _) hsound).next hnext
          · exact (h.setGuideLoad (.refreshing _) hsound).next hnext
      · contradiction
  | guideChannelsReturn t => exact h.guideChannelsReturn hact
  | guideGeneration t =>
      simp only [act] at hact
      split at hact
      · next seen hload =>
          have hsound := h.guideSound hload
          obtain rfl := Option.some.inj hact
          exact (h.setGuideLoad (.starting _ _) ⟨hsound.1, hsound.2, Nat.le_refl _⟩).next
            hnext
      · contradiction
  | guideRequest t =>
      simp only [act] at hact
      split at hact
      · next seen generation hload =>
          have hsound := h.guideSound hload
          obtain ⟨hheld, hserves, hle⟩ := hsound
          obtain rfl := Option.some.inj hact
          refine (h.setGuideLoad (.fetching _ _ _ _)
            ⟨hheld, hserves, Int.le_refl _, hle, fun _ => ?_⟩).next hnext
          exact Nat.lt_succ_of_le h.renumberedAt_le
      · contradiction
  | guideFetchFailed t httpStatus guideUnusable =>
      simp only [act] at hact
      split at hact
      · next seen generation beganAt began hload =>
          have hsound := h.guideSound hload
          obtain rfl := Option.some.inj hact
          exact ((h.guideReturns hsound.1).failures _ _ _ _).next hnext
      · contradiction
  | guideParseFailed t =>
      simp only [act] at hact
      split at hact
      · next seen generation beganAt began hload =>
          have hsound := h.guideSound hload
          obtain rfl := Option.some.inj hact
          exact ((h.guideReturns hsound.1).failures _ _ _ _).next hnext
      · contradiction
  | guideCommit t parsed => exact h.guideCommitted hact
  | refreshEvent t kind =>
      simp only [act] at hact
      split at hact
      · obtain rfl := Option.some.inj hact
        refine (h.setHandling _ fun kind' r hr => ?_).next hnext
        obtain ⟨-, rfl⟩ := Prod.mk.inj (Option.some.inj hr)
        exact ⟨h.now_nonneg, Int.le_refl _⟩
      · contradiction
  | refreshEventHandled t => exact h.refreshEventHandled hact
  | systemWake =>
      obtain rfl := Option.some.inj hact
      exact h.systemWake.next hnext

/-! ## the due time -/

/-- Thread `t` commits a guide fetch that serves the follow-up that is due. -/
def ClearsRefetch (s : GuideCaches Thread Guide) (t : Thread) (began : Int) : Prop :=
  ∃ seen generation beganAt, s.guideLoad t = .fetching seen generation beganAt began ∧
    seen.serving = true ∧ s.epgRefetchDueAt = seen.dueAt

/-- **Step lemma**: a scheduled follow-up stays or moves out, but for the commit
of a fetch that serves it. -/
theorem due_step (h : s.Inv c) (hstep : s.step c e = some s') :
    s.epgRefetchDueAt ≤ s'.epgRefetchDueAt ∨ (s'.epgRefetchDueAt = 0 ∧
      ∃ t parsed began, e = .guideCommit t parsed ∧ s.ClearsRefetch t began) := by
  obtain ⟨m, hact, rfl⟩ := step_eq_some_iff.mp hstep
  change s.epgRefetchDueAt ≤ m.epgRefetchDueAt ∨ (m.epgRefetchDueAt = 0 ∧ _)
  cases e with
  | channelsCommit t groupsOk =>
      simp only [act] at hact
      split at hact
      · obtain rfl := Option.some.inj hact
        refine .inl ?_
        simp only [GuideCaches.channelsReturns, GuideCaches.setChannelLoad,
          GuideCaches.commitChannels]
        split
        · exact h.due_le
        · exact Int.le_refl _
      · contradiction
  | guideCommit t parsed =>
      simp only [act] at hact
      split at hact
      · next seen generation beganAt began hload =>
          split at hact <;> obtain rfl := Option.some.inj hact
          · by_cases hcleared : seen.serving = true ∧ s.epgRefetchDueAt = seen.dueAt
            · refine .inr ⟨?_, t, parsed, began, rfl, seen, generation, beganAt, hload, hcleared⟩
              simp only [GuideCaches.guideReturns, GuideCaches.setGuideLoad,
                GuideCaches.commitGuide, Bool.and_eq_true, beq_iff_eq, if_pos hcleared]
            · refine .inl (Int.le_of_eq ?_)
              simp only [GuideCaches.guideReturns, GuideCaches.setGuideLoad,
                GuideCaches.commitGuide, Bool.and_eq_true, beq_iff_eq, if_neg hcleared]
          · exact .inl (Int.le_refl _)
      · contradiction
  | refreshEventHandled t =>
      simp only [act] at hact
      split at hact
      · next kind now hhandling =>
          obtain rfl := Option.some.inj hact
          cases kind with
          | guideParsed =>
              have hsoon := (scheduleGuideRefetchForEvent_spec s.epgRefetchDueAt now).2
              have hpos := (h.guideParsed (h.handling t _ now hhandling)).due_nonneg
              refine .inl ?_
              by_cases hset : s.epgRefetchDueAt = 0
              · rw [hset]
                exact hpos
              · exact hsoon hset
          | channelsSynced => exact .inl (Int.le_refl _)
      · contradiction
  | _ =>
      -- no other step writes the due time
      refine .inl (Int.le_of_eq ?_)
      simp only [act, Option.ite_none_right_eq_some] at hact
      repeat' split at hact
      all_goals first
        | contradiction
        | (obtain rfl := Option.some.inj hact; rfl)
        | (obtain ⟨-, hact⟩ := hact; obtain rfl := Option.some.inj hact; rfl)

omit [DecidableEq Thread] in
theorem inv_init (c : RefreshSettings) (start : Nat) :
    (init start : GuideCaches Thread Guide).Inv c where
  now_nonneg := Int.natCast_nonneg start
  channelLoads _ := trivial
  guideLoads _ := trivial
  handling _ _ _ h := by cases h
  due_nonneg := Int.le_refl _
  due_le := by
    have := kGuideRefetchAfterRefreshEvent_pos
    change 0 ≤ (start : Int) + kGuideRefetchAfterRefreshEvent
    omega
  covered _ h := by cases h
  renumberedAt_le := Nat.le_refl _
  channelsSyncedAt_le := Nat.le_refl _
  guide h := by cases h
  channels _ := rfl

/-- **The guide and its follow-up are coherent** in every state of every run.
A guide in hand was fetched after the last detected renumbering; a channel list
fetched before the last M3U refresh event is stale; and a scheduled follow-up
only moves out, until the commit of a guide fetch clears it that began at or
after it and at least 330 s after every guide event and renumbering so far. -/
theorem guide_caches_coherent (c : RefreshSettings) (start : Nat)
    {es : List (GuideEvent Thread Guide)} {s : GuideCaches Thread Guide}
    (hrun : run (GuideCaches.step c) (init start) es = some s) :
    (s.epgByChannelNumber.isSome → s.renumberedAt < s.guideBeganAt) ∧
    (s.channelsBeganAt ≤ s.channelsSyncedAt →
      isStaleSince s.channelsLoadedAt s.now c.channelInterval = true) ∧
    ∀ e s', s.step c e = some s' →
      s.epgRefetchDueAt ≤ s'.epgRefetchDueAt ∨ (s'.epgRefetchDueAt = 0 ∧
        ∃ t parsed seen generation beganAt began, e = .guideCommit t parsed ∧
          s.guideLoad t = .fetching seen generation beganAt began ∧
          s.epgRefetchDueAt ≤ began ∧ ∀ r ∈ s.guideEvents, r + seconds 330 ≤ began) := by
  have hinv : s.Inv c :=
    invariant (I := Inv c) (fun h hs => h.step hs) (inv_init c start) hrun
  refine ⟨hinv.guide, hinv.channels, fun e s' hstep => (due_step hinv hstep).imp_right ?_⟩
  rintro ⟨hcleared, t, parsed, began, he, seen, generation, beganAt, hload, hserving, hsame⟩
  have hsound := hinv.guideLoads t
  rw [hload] at hsound
  obtain ⟨-, hdue, -, hevents⟩ := hsound.2.1 hserving
  exact ⟨hcleared, t, parsed, seen, generation, beganAt, began, he, hload, hsame ▸ hdue,
    hevents hsame⟩

/-- A guide event, and the follow-up it scheduled, fetched when it is due. -/
def followUp : List (GuideEvent Unit Unit) :=
  [.refreshEvent () .guideParsed, .refreshEventHandled (), .clock 330000000000,
    .guideEnter (), .guideGate (), .guideLock (), .guideGateAgain (), .guideCheckChannels (),
    .channelsEnter (), .channelsGate (), .channelsLock (), .channelsGateAgain (),
    .channelsRequest (), .channelsAnswer () (some []), .channelsCommit () true,
    .guideChannelsReturn (), .guideGeneration (), .guideRequest ()]

/-- Its commit clears the due time, and the fetch began 330 s after the event. -/
theorem guide_caches_coherent_followUp :
    ∃ s s' : GuideCaches Unit Unit, run (GuideCaches.step {}) (init 1) followUp = some s ∧
      s.step {} (.guideCommit () ()) = some s' ∧ s'.epgRefetchDueAt = 0 ∧
      ∃ began, s.epgRefetchDueAt ≤ began ∧ ∀ r ∈ s.guideEvents, r + seconds 330 ≤ began := by
  have hsome : (run (GuideCaches.step {}) (init 1 : GuideCaches Unit Unit) followUp).isSome := by
    decide +kernel
  have hcommit : ((Option.get _ hsome).step {} (.guideCommit () ())).isSome := by
    decide +kernel +revert
  have hdue : (Option.get _ hcommit).epgRefetchDueAt < (Option.get _ hsome).epgRefetchDueAt := by
    decide +kernel +revert
  have hrun := (Option.some_get hsome).symm
  have hstep := (Option.some_get hcommit).symm
  rcases (guide_caches_coherent {} 1 hrun).2.2 _ _ hstep with
    hle | ⟨hcleared, t, parsed, seen, generation, beganAt, began, -, -, hbegan, hevents⟩
  · omega
  · exact ⟨_, _, hrun, hstep, hcleared, began, hbegan, hevents⟩

end GuideCaches

end DispatcharrPvr
