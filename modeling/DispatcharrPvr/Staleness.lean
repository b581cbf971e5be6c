/-!
# Staleness

The timing decisions of `Staleness.h`.  A `steady_clock::time_point` is its
count since the epoch, in nanoseconds; 0 stands for a time that was never set.
-/

namespace DispatcharrPvr

/-- `std::chrono::seconds`, in clock ticks. -/
def seconds (n : Int) : Int := n * 1000000000

/-- `IsStaleSince`. -/
def isStaleSince (lastRefresh now interval : Int) : Bool :=
  if lastRefresh = 0 then true else now - lastRefresh > interval

/-- `IsRetryDue`. -/
def isRetryDue (lastFailedAttempt now retryInterval : Int) : Bool :=
  if lastFailedAttempt = 0 then true else now - lastFailedAttempt ≥ retryInterval

/-- `ShouldFetchChannels`. -/
def shouldFetchChannels (channelsLoadedAt channelsLastFailedAt groupsLastFailedAt now
    channelsRefreshInterval failureRetryInterval : Int) (forceStale : Bool) : Bool :=
  let channelsStale := forceStale || isStaleSince channelsLoadedAt now channelsRefreshInterval
  let groupsRetryPending :=
    groupsLastFailedAt ≠ 0 && isRetryDue groupsLastFailedAt now failureRetryInterval
  if !channelsStale && !groupsRetryPending then false
  else isRetryDue channelsLastFailedAt now failureRetryInterval

/-- `MarkStaleForWake`. -/
def markStaleForWake (loadedAt now interval : Int) : Int :=
  if loadedAt = 0 then loadedAt else now - interval - seconds 1

/-- `kGuideRefetchAfterRenumber`. -/
def kGuideRefetchAfterRenumber : Int := seconds 330

/-- `IsGuideRefetchPending`. -/
def isGuideRefetchPending (dueAt : Int) : Bool := dueAt != 0

/-- `IsGuideRefetchDue`. -/
def isGuideRefetchDue (dueAt now : Int) : Bool := isGuideRefetchPending dueAt && now ≥ dueAt

/-- `ShouldCountTowardEpgFailureBackoff`. -/
def shouldCountTowardEpgFailureBackoff (httpCode : Int) (responseUnusable : Bool) : Bool :=
  responseUnusable || (httpCode ≥ 400 && httpCode < 500 && httpCode ≠ 408)

/-- `kMaxEpgFailureRetryMinutes`. -/
def kMaxEpgFailureRetryMinutes : Int := 30

/-- The loop of `ComputeEpgFailureRetryInterval`: `n` doublings, or fewer once
the interval has reached `maxInterval`. -/
def doubledUpTo (maxInterval : Int) : Nat → Int → Int
  | 0, interval => interval
  | n + 1, interval =>
      if interval < maxInterval then doubledUpTo maxInterval n (interval * 2) else interval

/-- `ComputeEpgFailureRetryInterval`. -/
def computeEpgFailureRetryInterval (consecutiveDurableFailures : Nat) (baseInterval : Int) : Int :=
  let maxInterval := seconds (60 * kMaxEpgFailureRetryMinutes)
  let interval := doubledUpTo maxInterval (consecutiveDurableFailures - 1) baseInterval
  if interval < maxInterval then interval else maxInterval

/-- `ShouldAttemptGuideFetch`. -/
def shouldAttemptGuideFetch (epgLoadedAt refetchDueAt lastFailedAt : Int)
    (consecutiveDurableFailures : Nat) (now refreshInterval failureRetryBaseInterval : Int) : Bool :=
  if !isStaleSince epgLoadedAt now refreshInterval && !isGuideRefetchDue refetchDueAt now then false
  else
    isRetryDue lastFailedAt now
      (computeEpgFailureRetryInterval consecutiveDurableFailures failureRetryBaseInterval)

/-- `IsFetchStillCurrent`. -/
def isFetchStillCurrent (generationAtStart generationNow : Nat) : Bool :=
  generationAtStart == generationNow

theorem isStaleSince_eq_false_iff {lastRefresh now interval : Int} :
    isStaleSince lastRefresh now interval = false ↔
      lastRefresh ≠ 0 ∧ now - lastRefresh ≤ interval := by
  unfold isStaleSince
  split
  · simp [*]
  · simp [*]

@[simp] theorem isStaleSince_zero (now interval : Int) : isStaleSince 0 now interval = true := rfl

/-- What has gone stale stays so until it is loaded again. -/
theorem isStaleSince_mono {lastRefresh now later interval : Int} (hle : now ≤ later)
    (h : isStaleSince lastRefresh now interval = true) :
    isStaleSince lastRefresh later interval = true := by
  cases hlater : isStaleSince lastRefresh later interval with
  | true => rfl
  | false =>
      obtain ⟨hset, hrecent⟩ := isStaleSince_eq_false_iff.mp hlater
      have hbefore : isStaleSince lastRefresh now interval = false :=
        isStaleSince_eq_false_iff.mpr ⟨hset, by omega⟩
      exact hbefore ▸ h

/-- A cache aged at some moment is stale from then on. -/
theorem isStaleSince_markStaleForWake {loadedAt now later interval : Int} (hle : now ≤ later) :
    isStaleSince (markStaleForWake loadedAt now interval) later interval = true := by
  unfold markStaleForWake isStaleSince
  split
  · simp [*]
  · split
    · rfl
    · have : 0 < seconds 1 := by decide
      exact decide_eq_true (by omega)

theorem isGuideRefetchDue_iff {dueAt now : Int} :
    isGuideRefetchDue dueAt now = true ↔ dueAt ≠ 0 ∧ dueAt ≤ now := by
  simp [isGuideRefetchDue, isGuideRefetchPending]

end DispatcharrPvr
