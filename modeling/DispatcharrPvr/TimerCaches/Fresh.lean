import DispatcharrPvr.TimerCaches

/-!
# TimerCaches.Fresh

When no cache of recordings or timers calls old data fresh.  A load keeps the
generation of its start, so what it commits under a stamp of its own is up to
date (`TimerCaches.Inv`).  Its data is stored whatever the generation says,
under the stamp that is there: a load that an invalidation overtook leaves old
data behind, and that counts as fresh where a newer load has stamped the cache
before it.  Such a commit is the only way, so the property holds throughout a
run exactly when the run has none (`commitsNoOldData_iff`).
-/

namespace DispatcharrPvr

open Runs

/-! ## one cache -/

namespace FetchCache

variable {α : Type} {c : FetchCache α} {ticket : FetchTicket} {now : Int} {data : α} {step : Nat}

/-- The ticket's generation is the cache's own only if its fetch began after
the latest invalidation. -/
def Admits (c : FetchCache α) (ticket : FetchTicket) : Prop :=
  ticket.generationAtStart ≤ c.generation ∧
    (ticket.generationAtStart = c.generation → c.invalidatedAt < ticket.beganAt)

/-- Nothing was invalidated between `c` and `d`, or the generation has risen. -/
def Later (c d : FetchCache α) : Prop :=
  (d.generation = c.generation ∧ d.invalidatedAt = c.invalidatedAt) ∨ c.generation < d.generation

theorem Later.refl (c : FetchCache α) : c.Later c := .inl ⟨rfl, rfl⟩

theorem Later.generation_le {d : FetchCache α} (h : c.Later d) : c.generation ≤ d.generation := by
  rcases h with ⟨h, -⟩ | h
  · exact Nat.le_of_eq h.symm
  · exact Nat.le_of_lt h

theorem Admits.later {d : FetchCache α} (h : c.Admits ticket) (hlater : c.Later d) :
    d.Admits ticket := by
  obtain ⟨hle, hbegan⟩ := h
  rcases hlater with ⟨hgeneration, hinvalidated⟩ | hlt
  · exact ⟨by omega, fun heq => by rw [hinvalidated]; exact hbegan (by omega)⟩
  · exact ⟨by omega, fun heq => by omega⟩

theorem later_commit : c.Later (c.commit now ticket data) := .inl ⟨rfl, rfl⟩

theorem later_invalidate : c.Later (c.invalidate step) := .inr (Nat.lt_succ_self _)

theorem Fresh.of_later {earlier later : Int} (h : c.Fresh later) (hle : earlier ≤ later) :
    c.Fresh earlier := by
  unfold Fresh at h ⊢
  cases hstale : isStaleSince c.cachedAt earlier (seconds kRecordingsAndTimersCacheTtlSeconds) with
  | false => rfl
  | true => rw [isStaleSince_mono hle hstale] at h; contradiction

theorem not_fresh_invalidate : ¬ (c.invalidate step).Fresh now := by
  simp [Fresh, invalidate]

/-- A commit leaves up-to-date data under a stamp that counts as fresh, if old
data only lands where the cache is stale. -/
theorem upToDate_commit {entered : Int} (hadmits : c.Admits ticket)
    (hold : c.Fresh now → ¬ c.Outdates ticket)
    (hfresh : (c.commit entered ticket data).Fresh now) :
    (c.commit entered ticket data).UpToDate := by
  by_cases hcurrent : ticket.generationAtStart = c.generation
  · exact hadmits.2 hcurrent
  · have hstamp : (c.commit entered ticket data).cachedAt = c.cachedAt := by
      simp [commit, isFetchStillCurrent, hcurrent]
    have hbefore : c.Fresh now := by unfold Fresh at hfresh ⊢; rwa [hstamp] at hfresh
    exact Nat.lt_of_not_le (hold hbefore)

/-- Old data that lands on a cache that counts as fresh counts as fresh. -/
theorem fresh_commit_of_outdates {entered : Int} (hadmits : c.Admits ticket) (hfresh : c.Fresh now)
    (hold : c.Outdates ticket) :
    (c.commit entered ticket data).Fresh now ∧ ¬ (c.commit entered ticket data).UpToDate := by
  have hother : ticket.generationAtStart ≠ c.generation := fun heq =>
    absurd (hadmits.2 heq) (Nat.not_lt.mpr hold)
  refine ⟨?_, Nat.not_lt.mpr hold⟩
  unfold Fresh at hfresh ⊢
  simpa [commit, isFetchStillCurrent, hother] using hfresh

end FetchCache

/-! ## the loads -/

namespace TimerCaches

variable {Thread : Type} [DecidableEq Thread] {s s' : TimerCaches Thread} {e : CacheEvent Thread}

/-- What a load holds is no newer than the caches it was read from. -/
def Sound (s : TimerCaches Thread) : CacheLoad → Prop
  | .idle | .recordingsEntered _ | .rulesEntered _ => True
  | .recordingsGated _ generation => generation ≤ s.recordings.generation
  | .recordingsFetching _ ticket => s.recordings.Admits ticket
  | .rulesGated _ series recurring =>
      series ≤ s.seriesRules.generation ∧ recurring ≤ s.recurringRules.generation
  | .seriesFetching _ series recurring | .seriesFetched _ series _ recurring =>
      s.seriesRules.Admits series ∧ recurring ≤ s.recurringRules.generation
  | .recurringFetching _ series _ recurring =>
      s.seriesRules.Admits series ∧ s.recurringRules.Admits recurring

/-- Every load is sound, and no invalidation lies ahead. -/
structure Inv (s : TimerCaches Thread) : Prop where
  loads : ∀ t, s.Sound (s.load t)
  recordings : s.recordings.invalidatedAt ≤ s.steps
  seriesRules : s.seriesRules.invalidatedAt ≤ s.steps
  recurringRules : s.recurringRules.invalidatedAt ≤ s.steps

omit [DecidableEq Thread] in
theorem Sound.later {load : CacheLoad} (h : s.Sound load)
    (hrecordings : s.recordings.Later s'.recordings)
    (hseries : s.seriesRules.Later s'.seriesRules)
    (hrecurring : s.recurringRules.Later s'.recurringRules) : s'.Sound load := by
  cases load with
  | idle => trivial
  | recordingsEntered now => trivial
  | recordingsGated now generation => exact Nat.le_trans h hrecordings.generation_le
  | recordingsFetching now ticket => exact FetchCache.Admits.later h hrecordings
  | rulesEntered now => trivial
  | rulesGated now series recurring =>
      exact ⟨Nat.le_trans h.1 hseries.generation_le, Nat.le_trans h.2 hrecurring.generation_le⟩
  | seriesFetching now series recurring =>
      exact ⟨h.1.later hseries, Nat.le_trans h.2 hrecurring.generation_le⟩
  | seriesFetched now series rules recurring =>
      exact ⟨h.1.later hseries, Nat.le_trans h.2 hrecurring.generation_le⟩
  | recurringFetching now series rules recurring =>
      exact ⟨h.1.later hseries, h.2.later hrecurring⟩

/-- A step of a thread that touches no cache keeps the invariant, if what the
thread holds behind it is sound. -/
theorem Inv.setLoad (h : s.Inv) (t : Thread) (load : CacheLoad) (hsound : s.Sound load) :
    (s.setLoad t load).Inv := by
  refine ⟨fun t' => ?_, h.recordings, h.seriesRules, h.recurringRules⟩
  simp only [TimerCaches.setLoad]
  split
  · exact hsound
  · exact h.loads t'

/-- A request goes out after every invalidation so far. -/
theorem admits_request {α : Type} {c : FetchCache α} {generation steps : Nat}
    (hle : generation ≤ c.generation) (hpast : c.invalidatedAt ≤ steps) :
    c.Admits ⟨generation, steps + 1⟩ :=
  ⟨hle, fun _ => Nat.lt_succ_of_le hpast⟩

theorem step_eq_some_iff :
    s.step e = some s' ↔ ∃ m, s.act e = some m ∧ s' = { m with steps := s.steps + 1 } := by
  unfold step
  rw [Option.map_eq_some_iff]
  exact exists_congr fun m => and_congr_right fun _ => eq_comm

/-! ### what a step does to the caches -/

/-- What a step does to the caches. -/
inductive Effect (s m : TimerCaches Thread) : CacheEvent Thread → Prop
  /-- Nothing; what the threads hold behind it is sound. -/
  | quiet {e : CacheEvent Thread} (elapsed : Nat) (channels : List NamedChannel)
      (load : Thread → CacheLoad) (hsound : ∀ t, s.Sound (load t))
      (hcondition : s.CommitsNoOldData e)
      (heq : m = { s with now := s.now + elapsed, channels, load }) : Effect s m e
  | invalidateRecordings
      (heq : m = { s with recordings := s.recordings.invalidate (s.steps + 1) }) :
      Effect s m .invalidateRecordings
  | invalidateTimers
      (heq : m = { s with
        recordings := s.recordings.invalidate (s.steps + 1)
        seriesRules := s.seriesRules.invalidate (s.steps + 1)
        recurringRules := s.recurringRules.invalidate (s.steps + 1) }) :
      Effect s m .invalidateTimers
  | recordingsCommit (t : Thread) (answer : List ListedRecording) (now : Int)
      (ticket : FetchTicket) (hload : s.load t = .recordingsFetching now ticket)
      (heq : m = { s.setLoad t .idle with
        recordings :=
          s.recordings.commit now ticket (answer.map (·.withDisplayTitle s.channels)) }) :
      Effect s m (.recordingsCommit t (some answer))
  | rulesCommit (t : Thread) (answer : Option (List RecurringRule)) (now : Int)
      (series : FetchTicket) (rules : Option (List TimerRule)) (recurring : FetchTicket)
      (hload : s.load t = .recurringFetching now series rules recurring)
      (heq : m = { s.setLoad t .idle with
        seriesRules := rules.elim s.seriesRules (s.seriesRules.commit now series)
        recurringRules := answer.elim s.recurringRules (s.recurringRules.commit now recurring) }) :
      Effect s m (.rulesCommit t answer)

/-- A step of one thread that only moves its own load. -/
theorem effect_setLoad (hinv : s.Inv) {t : Thread} {load : CacheLoad} (hsound : s.Sound load)
    (hcondition : s.CommitsNoOldData e) : Effect s (s.setLoad t load) e :=
  .quiet 0 s.channels (s.setLoad t load).load (hinv.setLoad t load hsound).loads hcondition
    (by simp [setLoad])

theorem effect_of_act {m : TimerCaches Thread} (hinv : s.Inv)
    (h : s.act e = some m) : Effect s m e := by
  cases e with
  | clock elapsed =>
      obtain rfl := Option.some.inj h
      exact .quiet elapsed s.channels s.load hinv.loads trivial rfl
  | channelsCommit channels =>
      obtain rfl := Option.some.inj h
      exact .quiet 0 channels s.load hinv.loads trivial (by simp)
  | invalidateRecordings => exact .invalidateRecordings (Option.some.inj h).symm
  | invalidateTimers => exact .invalidateTimers (Option.some.inj h).symm
  | recordingsEnter t =>
      simp only [act, Option.ite_none_right_eq_some, Option.some.injEq] at h
      exact h.2 ▸ effect_setLoad hinv trivial trivial
  | recordingsGate t =>
      simp only [act] at h
      split at h
      · split at h <;> obtain rfl := Option.some.inj h
        · exact effect_setLoad hinv trivial trivial
        · exact effect_setLoad hinv (Nat.le_refl _) trivial
      · contradiction
  | recordingsRequest t =>
      simp only [act] at h
      split at h
      · next now generation hload =>
          obtain rfl := Option.some.inj h
          have hsound := hinv.loads t
          rw [hload] at hsound
          exact effect_setLoad hinv (admits_request hsound hinv.recordings) trivial
      · contradiction
  | recordingsCommit t answer =>
      simp only [act] at h
      split at h
      · next now ticket recordings hload =>
          exact .recordingsCommit t recordings now ticket hload (Option.some.inj h).symm
      · obtain rfl := Option.some.inj h
        exact effect_setLoad hinv trivial fun hsome => nomatch hsome
      · contradiction
  | rulesEnter t =>
      simp only [act, Option.ite_none_right_eq_some, Option.some.injEq] at h
      exact h.2 ▸ effect_setLoad hinv trivial trivial
  | rulesGate t =>
      simp only [act] at h
      split at h
      · split at h <;> obtain rfl := Option.some.inj h
        · exact effect_setLoad hinv trivial trivial
        · exact effect_setLoad hinv ⟨Nat.le_refl _, Nat.le_refl _⟩ trivial
      · contradiction
  | seriesRequest t =>
      simp only [act] at h
      split at h
      · next now series recurring hload =>
          obtain rfl := Option.some.inj h
          have hsound := hinv.loads t
          rw [hload] at hsound
          exact effect_setLoad hinv ⟨admits_request hsound.1 hinv.seriesRules, hsound.2⟩ trivial
      · contradiction
  | seriesAnswer t answer =>
      simp only [act] at h
      split at h
      · next now series recurring hload =>
          obtain rfl := Option.some.inj h
          have hsound := hinv.loads t
          rw [hload] at hsound
          exact effect_setLoad hinv hsound trivial
      · contradiction
  | recurringRequest t =>
      simp only [act] at h
      split at h
      · next now series rules recurring hload =>
          obtain rfl := Option.some.inj h
          have hsound := hinv.loads t
          rw [hload] at hsound
          exact effect_setLoad hinv ⟨hsound.1, admits_request hsound.2 hinv.recurringRules⟩ trivial
      · contradiction
  | rulesCommit t answer =>
      simp only [act] at h
      split at h
      · next now series rules recurring hload =>
          exact .rulesCommit t answer now series rules recurring hload (Option.some.inj h).symm
      · contradiction

/-- **Step lemma**: the invariant survives every step. -/
theorem Inv.step (hinv : s.Inv) (h : s.step e = some s') : s'.Inv := by
  obtain ⟨m, hact, rfl⟩ := step_eq_some_iff.mp h
  have hpast : ∀ {n : Nat}, n ≤ s.steps → n ≤ s.steps + 1 := Nat.le_succ_of_le
  cases effect_of_act hinv hact with
  | quiet elapsed channels load hsound _ heq =>
      subst heq
      exact ⟨hsound, hpast hinv.recordings, hpast hinv.seriesRules, hpast hinv.recurringRules⟩
  | invalidateRecordings heq =>
      subst heq
      exact ⟨fun t => (hinv.loads t).later FetchCache.later_invalidate (.refl _) (.refl _),
        Nat.le_refl _, hpast hinv.seriesRules, hpast hinv.recurringRules⟩
  | invalidateTimers heq =>
      subst heq
      exact ⟨fun t => (hinv.loads t).later FetchCache.later_invalidate
        FetchCache.later_invalidate FetchCache.later_invalidate,
        Nat.le_refl _, Nat.le_refl _, Nat.le_refl _⟩
  | recordingsCommit t answer now ticket _ heq =>
      subst heq
      have hidle := hinv.setLoad t .idle trivial
      exact ⟨fun t' => (hidle.loads t').later FetchCache.later_commit (.refl _) (.refl _),
        hpast hinv.recordings, hpast hinv.seriesRules, hpast hinv.recurringRules⟩
  | rulesCommit t answer now series rules recurring _ heq =>
      subst heq
      have hidle := hinv.setLoad t .idle trivial
      refine ⟨fun t' => (hidle.loads t').later (.refl _) ?_ ?_, hpast hinv.recordings, ?_, ?_⟩
      · cases rules with
        | none => exact .refl _
        | some data => exact FetchCache.later_commit
      · cases answer with
        | none => exact .refl _
        | some data => exact FetchCache.later_commit
      · cases rules with
        | none => exact hpast hinv.seriesRules
        | some data => exact hpast hinv.seriesRules
      · cases answer with
        | none => exact hpast hinv.recurringRules
        | some data => exact hpast hinv.recurringRules

/-- **Step lemma**: a step that commits no old data over a fresh stamp leaves
no cache that calls old data fresh. -/
theorem NoOldDataFresh.step (hinv : s.Inv) (hfresh : s.NoOldDataFresh)
    (hcondition : s.CommitsNoOldData e) (h : s.step e = some s') : s'.NoOldDataFresh := by
  obtain ⟨m, hact, rfl⟩ := step_eq_some_iff.mp h
  obtain ⟨hrecordings, hseries, hrecurring⟩ := hfresh
  cases effect_of_act hinv hact with
  | quiet elapsed channels load _ _ heq =>
      subst heq
      have hle : s.now ≤ s.now + elapsed := by omega
      exact ⟨fun hf => hrecordings (hf.of_later hle), fun hf => hseries (hf.of_later hle),
        fun hf => hrecurring (hf.of_later hle)⟩
  | invalidateRecordings heq =>
      subst heq
      exact ⟨fun hf => absurd hf FetchCache.not_fresh_invalidate, hseries, hrecurring⟩
  | invalidateTimers heq =>
      subst heq
      exact ⟨fun hf => absurd hf FetchCache.not_fresh_invalidate,
        fun hf => absurd hf FetchCache.not_fresh_invalidate,
        fun hf => absurd hf FetchCache.not_fresh_invalidate⟩
  | recordingsCommit t answer now ticket hload heq =>
      subst heq
      have hadmits : s.recordings.Admits ticket := by simpa [Sound, hload] using hinv.loads t
      have hold := hcondition rfl ticket (by simp [hload, CacheLoad.recordingsTicket])
      exact ⟨FetchCache.upToDate_commit hadmits hold, hseries, hrecurring⟩
  | rulesCommit t answer now series rules recurring hload heq =>
      subst heq
      have hadmits : s.seriesRules.Admits series ∧ s.recurringRules.Admits recurring := by
        simpa [Sound, hload] using hinv.loads t
      obtain ⟨hseriesOld, hrecurringOld⟩ := hcondition
      refine ⟨hrecordings, ?_, ?_⟩
      · cases rules with
        | none => exact hseries
        | some data =>
            exact FetchCache.upToDate_commit hadmits.1
              (hseriesOld series (by simp [hload, CacheLoad.seriesTicket]))
      · cases answer with
        | none => exact hrecurring
        | some data =>
            exact FetchCache.upToDate_commit hadmits.2
              (hrecurringOld rfl recurring (by simp [hload, CacheLoad.recurringTicket]))

/-- **Step lemma**: any other step leaves one that does. -/
theorem not_noOldDataFresh_step (hinv : s.Inv) (hcondition : ¬ s.CommitsNoOldData e)
    (h : s.step e = some s') : ¬ s'.NoOldDataFresh := by
  obtain ⟨m, hact, rfl⟩ := step_eq_some_iff.mp h
  cases effect_of_act hinv hact with
  | quiet _ _ _ _ hquiet _ => exact absurd hquiet hcondition
  | invalidateRecordings _ => exact absurd trivial hcondition
  | invalidateTimers _ => exact absurd trivial hcondition
  | recordingsCommit t answer now ticket hload heq =>
      subst heq
      have hadmits : s.recordings.Admits ticket := by simpa [Sound, hload] using hinv.loads t
      simp only [CommitsNoOldData, hload, CacheLoad.recordingsTicket, Option.mem_some_iff,
        forall_eq', Option.isSome_some, forall_const, Classical.not_imp, not_not] at hcondition
      obtain ⟨hfresh, hold⟩ := hcondition
      obtain ⟨hafter, hnot⟩ := FetchCache.fresh_commit_of_outdates hadmits hfresh hold
      exact fun hall => hnot (hall.1 hafter)
  | rulesCommit t answer now series rules recurring hload heq =>
      subst heq
      have hadmits : s.seriesRules.Admits series ∧ s.recurringRules.Admits recurring := by
        simpa [Sound, hload] using hinv.loads t
      rw [CommitsNoOldData, Classical.not_and_iff_not_or_not] at hcondition
      rcases hcondition with hcondition | hcondition
      · cases rules with
        | none => simp [hload, CacheLoad.seriesTicket] at hcondition
        | some data =>
            simp only [hload, CacheLoad.seriesTicket, Option.mem_some_iff, forall_eq',
              Classical.not_imp, not_not] at hcondition
            obtain ⟨hfresh, hold⟩ := hcondition
            obtain ⟨hafter, hnot⟩ := FetchCache.fresh_commit_of_outdates hadmits.1 hfresh hold
            exact fun hall => hnot (hall.2.1 hafter)
      · cases answer with
        | none => simp at hcondition
        | some data =>
            simp only [hload, CacheLoad.recurringTicket, Option.mem_some_iff, forall_eq',
              Option.isSome_some, forall_const, Classical.not_imp, not_not] at hcondition
            obtain ⟨hfresh, hold⟩ := hcondition
            obtain ⟨hafter, hnot⟩ := FetchCache.fresh_commit_of_outdates hadmits.2 hfresh hold
            exact fun hall => hnot (hall.2.2 hafter)

/-! ## runs -/

omit [DecidableEq Thread] in
theorem inv_init (now : Int) : (init now : TimerCaches Thread).Inv :=
  ⟨fun _ => trivial, Nat.zero_le _, Nat.zero_le _, Nat.zero_le _⟩

omit [DecidableEq Thread] in
theorem noOldDataFresh_init (now : Int) : (init now : TimerCaches Thread).NoOldDataFresh := by
  simp [NoOldDataFresh, init, FetchCache.Fresh]

/-- **The caches call no old data fresh**, in every state of a run, exactly
when no step of it commits a fetch from before a cache's latest invalidation
while that cache counts as fresh. -/
theorem commitsNoOldData_iff (now : Int) {es : List (CacheEvent Thread)}
    {s : TimerCaches Thread} (hrun : run TimerCaches.step (init now) es = some s) :
    Meets TimerCaches.step CommitsNoOldData (init now) es ↔
      ∀ ps m, ps <+: es → run TimerCaches.step (init now) ps = some m → m.NoOldDataFresh :=
  meets_iff_within (J := Inv) (fun h hs => h.step hs) (fun h hI hC hs => hI.step h hC hs)
    (fun h _ hC hs => not_noOldDataFresh_step h hC hs) (inv_init now) (noOldDataFresh_init now)
    hrun

/-! ## an overtaken load -/

/-- Two threads load the recordings, the one since before an invalidation and
the other behind it; what has been deleted meanwhile is recording 7. -/
def overtakenLoads : List (CacheEvent Bool) :=
  [.recordingsEnter false, .recordingsGate false, .recordingsRequest false,
    .invalidateRecordings,
    .recordingsEnter true, .recordingsGate true, .recordingsRequest true,
    .recordingsCommit true (some [])]

/-- The overtaken load commits. -/
def overtakenCommit : CacheEvent Bool := .recordingsCommit false (some [⟨7, 1, [], false⟩])

/-- Recording 7 is back, and counts as fresh. -/
theorem overtakenCommit_calls_old_data_fresh :
    ¬ ∀ (es : List (CacheEvent Bool)) (s : TimerCaches Bool),
      run TimerCaches.step (init 1) es = some s → s.NoOldDataFresh := by
  intro hall
  have hsome :
      (run TimerCaches.step (init 1) (overtakenLoads ++ [overtakenCommit])).isSome := by decide
  have hnot : ¬ (Option.get _ hsome).NoOldDataFresh := by decide +revert
  exact hnot (hall _ _ (Option.some_get hsome).symm)

/-- Up to that commit every state of the run is as it should be. -/
theorem commitsNoOldData_iff_overtakenLoads :
    Meets TimerCaches.step CommitsNoOldData (init 1) overtakenLoads ∧
      ∀ ps m, ps <+: overtakenLoads → run TimerCaches.step (init 1) ps = some m →
        m.NoOldDataFresh := by
  have hmeets : Meets TimerCaches.step CommitsNoOldData (init 1) overtakenLoads := by decide
  exact ⟨hmeets, (commitsNoOldData_iff 1 (Option.some_get (by decide)).symm).mp hmeets⟩

end TimerCaches

end DispatcharrPvr
