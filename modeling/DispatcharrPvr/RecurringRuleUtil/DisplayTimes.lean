import DispatcharrPvr.RecurringRuleUtil

/-!
# RecurringRuleUtil.DisplayTimes

A rule's local times across a clock change: `ComputeRecurringRuleDisplayTimes`
asks for the offset three times at most, and with one change that is enough
(`refineOffset_split`): it settles on an offset under which the local time
exists, and keeps the one it began with where there are two or none.

* `displayTimes_resolved` — start and end are instants of the local times that
  were asked for, whenever there are any;
* `displayTimes_ordered_iff` — the end is after the start, unless the start is
  skipped and the end is not.
-/

namespace DispatcharrPvr

/-- An offset in minutes with one clock change. -/
def ChangesAt (D : Int → Int) (before after transition : Int) : Prop :=
  ∀ t, D t = if t < transition then before else after

section Change

variable {D K : Int → Int} {before after transition : Int}

/-- **The refinement with one clock change**: the local time is one before the
change, or one after it, or there is none and the offset is the first guess;
where it is both, the offset is the first guess too. -/
theorem refineOffset_split (hD : ChangesAt D before after transition) (localTime : Int)
    {guess : Int} (hguess : guess = before ∨ guess = after) :
    let offset := refineOffset D localTime guess 2
    ((offset = before ∧ localTime - before * 60 < transition) ∨
      (offset = after ∧ transition ≤ localTime - after * 60) ∨
      (offset = guess ∧ transition ≤ localTime - before * 60 ∧
        localTime - after * 60 < transition)) ∧
    (localTime - before * 60 < transition → transition ≤ localTime - after * 60 →
      offset = guess) := by
  have hbefore : ∀ {t}, t < transition → D t = before := fun ht => by rw [hD, if_pos ht]
  have hafter : ∀ {t}, transition ≤ t → D t = after := fun ht => by rw [hD, if_neg (by omega)]
  simp only [refineOffset]
  rcases hguess with rfl | rfl
  · by_cases hsettled : localTime - guess * 60 < transition
    · rw [if_pos (hbefore hsettled)]
      exact ⟨.inl ⟨rfl, hsettled⟩, fun _ _ => rfl⟩
    · rw [hafter (by omega)]
      by_cases hother : transition ≤ localTime - after * 60
      · rw [hafter hother, if_pos rfl]
        split
        · next heq => exact ⟨.inr (.inl ⟨heq.symm, hother⟩), fun _ _ => rfl⟩
        · exact ⟨.inr (.inl ⟨rfl, hother⟩), fun h => absurd h hsettled⟩
      · rw [hbefore (by omega)]
        split
        · exact ⟨.inr (.inr ⟨rfl, by omega, by omega⟩), fun _ _ => rfl⟩
        · split
          · next hne heq => exact absurd heq.symm hne
          · exact ⟨.inr (.inr ⟨rfl, by omega, by omega⟩), fun _ _ => rfl⟩
  · by_cases hsettled : transition ≤ localTime - guess * 60
    · rw [if_pos (hafter hsettled)]
      exact ⟨.inr (.inl ⟨rfl, hsettled⟩), fun _ _ => rfl⟩
    · rw [hbefore (by omega)]
      by_cases hother : localTime - before * 60 < transition
      · rw [hbefore hother, if_pos rfl]
        split
        · next heq => exact ⟨.inl ⟨heq.symm, hother⟩, fun _ _ => rfl⟩
        · exact ⟨.inl ⟨rfl, hother⟩, fun _ h => absurd h hsettled⟩
      · rw [hafter (by omega)]
        split
        · exact ⟨.inr (.inr ⟨rfl, by omega, by omega⟩), fun _ _ => rfl⟩
        · split
          · next hne heq => exact absurd heq.symm hne
          · exact ⟨.inr (.inr ⟨rfl, by omega, by omega⟩), fun _ _ => rfl⟩

/-- The offset is one of the two. -/
theorem refineOffset_mem (hD : ChangesAt D before after transition) (localTime : Int) {guess : Int}
    (hguess : guess = before ∨ guess = after) :
    refineOffset D localTime guess 2 = before ∨ refineOffset D localTime guess 2 = after := by
  rcases (refineOffset_split hD localTime hguess).1 with h | h | h
  · exact .inl h.1
  · exact .inr h.1
  · rw [h.1]
    exact hguess

/-- Whenever the local time exists, the refinement finds it. -/
theorem refineOffset_resolved (hD : ChangesAt D before after transition) (localTime : Int)
    {guess : Int} (hguess : guess = before ∨ guess = after)
    (hexists : ∃ t, t + D t * 60 = localTime) :
    D (localTime - refineOffset D localTime guess 2 * 60) = refineOffset D localTime guess 2 := by
  obtain ⟨t, ht⟩ := hexists
  have hspec := refineOffset_split hD localTime hguess
  rw [hD] at ht
  rcases hspec.1 with ⟨hoffset, hlt⟩ | ⟨hoffset, hle⟩ | ⟨-, hlate, hearly⟩
  · rw [hoffset, hD, if_pos hlt]
  · rw [hoffset, hD, if_neg (by omega)]
  · split at ht <;> omega

/-- The offsets that the display begins its refinements with. -/
theorem displayStartOffset_mem (hD : ChangesAt D before after transition)
    (startDate startSeconds : Int) :
    (D startDate = before ∨ D startDate = after) ∧
      (displayStartOffset startDate startSeconds D = before ∨
        displayStartOffset startDate startSeconds D = after) := by
  have hguess : D startDate = before ∨ D startDate = after := by
    rw [hD]
    split
    · exact .inl rfl
    · exact .inr rfl
  exact ⟨hguess, refineOffset_mem hD _ hguess⟩

/-- **Local times across a clock change**: the start and the end shown are
instants of the local times asked for, whenever there are such instants. -/
theorem displayTimes_resolved (hD : ChangesAt D before after transition)
    (startDate startSeconds endSeconds : Int) (K : Int → Int) :
    let shown := computeRecurringRuleDisplayTimes startDate startSeconds endSeconds D K
    let endLocal := displayEndLocal startDate startSeconds endSeconds
    ((∃ t, t + D t * 60 = startDate + startSeconds) →
      shown.startTime + D shown.startTime * 60 = startDate + startSeconds) ∧
    ((∃ t, t + D t * 60 = endLocal) → shown.endTime + D shown.endTime * 60 = endLocal) := by
  obtain ⟨hguess, hstart⟩ := displayStartOffset_mem hD startDate startSeconds
  constructor
  · intro hexists
    have hfix := refineOffset_resolved hD _ hguess hexists
    show startDate + startSeconds - displayStartOffset startDate startSeconds D * 60 +
      D (startDate + startSeconds - displayStartOffset startDate startSeconds D * 60) * 60 = _
    rw [displayStartOffset, hfix]
    omega
  · intro hexists
    have hfix := refineOffset_resolved hD _ hstart hexists
    show displayEndLocal startDate startSeconds endSeconds -
      displayEndOffset startDate startSeconds endSeconds D * 60 +
      D (displayEndLocal startDate startSeconds endSeconds -
        displayEndOffset startDate startSeconds endSeconds D * 60) * 60 = _
    rw [displayEndOffset, hfix]
    omega

/-- Berlin's offset in 2026, up to the autumn. -/
def berlinOffset (t : Int) : Int := if t < 1774746000 then 60 else 120

/-- From half past one to half past three, on the day whose clock skips the
hour between two and three. -/
theorem displayTimes_resolved_berlin :
    let shown := computeRecurringRuleDisplayTimes 1774742400 5400 12600 berlinOffset berlinOffset
    shown.startTime + berlinOffset shown.startTime * 60 = 1774742400 + 5400 ∧
      shown.endTime + berlinOffset shown.endTime * 60 = 1774742400 + 12600 :=
  have hresolved := displayTimes_resolved (fun _ => rfl : ChangesAt berlinOffset 60 120 1774746000)
    1774742400 5400 12600 berlinOffset
  ⟨hresolved.1 ⟨1774744200, by decide⟩, hresolved.2 ⟨1774747800, by decide⟩⟩

/-! ## the order of the two -/

/-- The clock goes forward over the start of a rule that is no longer than the
change and ends after it, on a date that begins before the change in UTC. -/
def SkipsStart (before after transition startDate startSeconds endSeconds : Int) : Prop :=
  transition + before * 60 ≤ startDate + startSeconds ∧
    startDate + startSeconds < transition + after * 60 ∧ startDate < transition ∧
    transition + after * 60 ≤ displayEndLocal startDate startSeconds endSeconds ∧
    displayEndLocal startDate startSeconds endSeconds - (startDate + startSeconds) ≤
      (after - before) * 60

/-- **The end is shown after the start**, and by a day and the change at most,
unless the change skips the start alone. -/
theorem displayTimes_ordered_iff (hD : ChangesAt D before after transition)
    {startDate startSeconds endSeconds : Int} (hstart : 0 ≤ startSeconds ∧ startSeconds < 86400)
    (hend : 0 ≤ endSeconds ∧ endSeconds < 86400) (K : Int → Int) :
    let shown := computeRecurringRuleDisplayTimes startDate startSeconds endSeconds D K
    (shown.startTime < shown.endTime ∧
      shown.endTime ≤ shown.startTime + 86400 + (after - before).natAbs * 60) ↔
    ¬ SkipsStart before after transition startDate startSeconds endSeconds := by
  intro shown
  obtain ⟨hguess, hoffset⟩ := displayStartOffset_mem hD startDate startSeconds
  have hstartSpec := refineOffset_split hD (startDate + startSeconds) hguess
  have hendSpec := refineOffset_split hD (displayEndLocal startDate startSeconds endSeconds) hoffset
  have hlength : startDate + startSeconds < displayEndLocal startDate startSeconds endSeconds ∧
      displayEndLocal startDate startSeconds endSeconds ≤ startDate + startSeconds + 86400 := by
    simp only [displayEndLocal]
    split <;> omega
  have hseed : D startDate = if startDate < transition then before else after := hD startDate
  have hstartTime : shown.startTime =
      startDate + startSeconds - displayStartOffset startDate startSeconds D * 60 := rfl
  have hendTime : shown.endTime = displayEndLocal startDate startSeconds endSeconds -
      displayEndOffset startDate startSeconds endSeconds D * 60 := rfl
  rw [hstartTime, hendTime, SkipsStart]
  simp only [displayStartOffset, displayEndOffset] at hoffset hstartSpec hendSpec ⊢
  generalize refineOffset D (displayEndLocal startDate startSeconds endSeconds)
    (refineOffset D (startDate + startSeconds) (D startDate) 2) 2 = endOffset at *
  generalize refineOffset D (startDate + startSeconds) (D startDate) 2 = startOffset at *
  clear hstartTime hendTime shown hD hoffset hguess
  obtain ⟨hstartCases, hstartBoth⟩ := hstartSpec
  obtain ⟨hendCases, hendBoth⟩ := hendSpec
  -- the end begins with the start's offset: the two differ only across the change
  rcases hstartCases with ⟨hs, h⟩ | ⟨hs, h⟩ | ⟨hs, hlate, hearly⟩
  · rcases hendCases with ⟨he, h'⟩ | ⟨he, h'⟩ | ⟨he, hlate', hearly'⟩ <;> omega
  · rcases hendCases with ⟨he, h'⟩ | ⟨he, h'⟩ | ⟨he, hlate', hearly'⟩ <;> omega
  · split at hseed
    · rcases hendCases with ⟨he, h'⟩ | ⟨he, h'⟩ | ⟨he, hlate', hearly'⟩ <;> omega
    · rcases hendCases with ⟨he, h'⟩ | ⟨he, h'⟩ | ⟨he, hlate', hearly'⟩ <;> omega

/-- A rule of an hour across the same change. -/
theorem displayTimes_ordered_berlin :
    let shown := computeRecurringRuleDisplayTimes 1774742400 5400 12600 berlinOffset berlinOffset
    (shown.startTime < shown.endTime ∧
      shown.endTime ≤ shown.startTime + 86400 + (120 - 60 : Int).natAbs * 60) ↔
    ¬ SkipsStart 60 120 1774746000 1774742400 5400 12600 :=
  displayTimes_ordered_iff (fun _ => rfl : ChangesAt berlinOffset 60 120 1774746000) (by decide)
    (by decide) berlinOffset

/-- From half past two to three, where the half hour is skipped: shown from half
past three to three. -/
theorem displayTimes_skipped_start :
    ¬ ∀ (D K : Int → Int) (before after transition startDate startSeconds endSeconds : Int),
      ChangesAt D before after transition → (after - before).natAbs ≤ 120 →
      0 ≤ startSeconds ∧ startSeconds < 86400 → 0 ≤ endSeconds ∧ endSeconds < 86400 →
      let shown := computeRecurringRuleDisplayTimes startDate startSeconds endSeconds D K
      shown.startTime < shown.endTime ∧
        shown.endTime ≤ shown.startTime + 86400 + (after - before).natAbs * 60 := by
  intro h
  have hshown := h berlinOffset berlinOffset 60 120 1774746000 1774742400 9000 10800 (fun _ => rfl)
    (by decide) (by decide) (by decide)
  exact absurd hshown.1 (by decide)

end Change

end DispatcharrPvr
