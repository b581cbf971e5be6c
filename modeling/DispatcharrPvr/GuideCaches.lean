import DispatcharrPvr.ChannelRenumbering
import DispatcharrPvr.Lib.Runs
import DispatcharrPvr.Staleness

/-!
# GuideCaches

The channel list and the guide of `PVRDispatcharr`: `EnsureChannelsLoaded`,
`EnsureEpgLoaded`, `HandleRefreshEvent` and the ageing of `OnSystemWake`, run
by any number of threads.  A step is what a thread does under `m_dataMutex`, a
reading of the clock ahead of it, the taking of a fetch mutex, or the moment a
request goes out; the clock may advance between any two.

`m_channels` is only its ids and guide keys, and a guide is whatever the parse
of an XMLTV document yields (`Guide`); the groups are only whether they could
be fetched.  Beside what the code keeps, the state numbers its steps and
records by them when the two caches were fetched, when a renumbering was last
detected and when an M3U refresh event was last handled, and it keeps the times
of all guide events and renumberings.
-/

namespace DispatcharrPvr

/-- `kGuideRefetchAfterRefreshEvent`. -/
def kGuideRefetchAfterRefreshEvent : Int := seconds 330

/-- `ScheduleGuideRefetchForEvent`. -/
def scheduleGuideRefetchForEvent (currentDueAt now : Int) : Int :=
  let due := now + kGuideRefetchAfterRefreshEvent
  if currentDueAt ≠ 0 ∧ currentDueAt ≥ due then currentDueAt else due

/-- `kChannelEpgFailureRetryMinutes`. -/
def kChannelEpgFailureRetryMinutes : Int := 1

/-- `kForceChannelRefreshMinAgeMinutes`. -/
def kForceChannelRefreshMinAgeMinutes : Int := 10

/-- `m_channelRefreshHours` and `m_epgRefreshHours`. -/
structure RefreshSettings where
  channelRefreshHours : Int := 12
  epgRefreshHours : Int := 4

namespace RefreshSettings

def channelInterval (c : RefreshSettings) : Int := seconds (3600 * c.channelRefreshHours)

def epgInterval (c : RefreshSettings) : Int := seconds (3600 * c.epgRefreshHours)

end RefreshSettings

/-! ## how far a thread has come -/

/-- A call of `EnsureChannelsLoaded`; `now` is its entry. -/
inductive ChannelLoad
  | idle
  | entered (now : Int) (forceStale : Bool)
  /-- The first gate passed; the fetch mutex comes next. -/
  | gated (now : Int) (forceStale : Bool)
  | locked (now : Int) (forceStale : Bool)
  /-- The second gate passed. -/
  | admitted (generationAtStart : Nat)
  | fetching (generationAtStart beganAt : Nat)
  | fetched (generationAtStart beganAt : Nat) (channels : List GuideChannel)
  | returned (result : Bool)
deriving DecidableEq, Repr

/-- The follow-up a guide fetch has seen, and whether it serves it. -/
structure SeenRefetch where
  dueAt : Int
  serving : Bool
deriving DecidableEq, Repr

/-- A call of `EnsureEpgLoaded`; `now` is its entry. -/
inductive GuideLoad
  | idle
  | entered (now : Int)
  /-- The first gate passed; the fetch mutex comes next. -/
  | gated (now : Int)
  | locked (now : Int)
  /-- The second gate passed. -/
  | admitted (now : Int) (seen : SeenRefetch)
  /-- Within the forced `EnsureChannelsLoaded`. -/
  | refreshing (seen : SeenRefetch)
  | refreshed (seen : SeenRefetch)
  /-- `m_epgGeneration` read. -/
  | starting (seen : SeenRefetch) (generationAtStart : Nat)
  /-- The request out since step `beganAt`, when the clock was `began`. -/
  | fetching (seen : SeenRefetch) (generationAtStart beganAt : Nat) (began : Int)
deriving DecidableEq, Repr

/-- With what `forceStale` a thread may call `EnsureChannelsLoaded`: its guide
fetch forces the refresh, and outside of one it is not forced. -/
def GuideLoad.forceStale : GuideLoad → Option Bool
  | .idle => some false
  | .refreshing _ => some true
  | _ => none

/-- `RefreshEventKind`, of the events that are handled. -/
inductive RefreshEventKind
  | guideParsed
  | channelsSynced
deriving DecidableEq, Repr

structure GuideCaches (Thread Guide : Type) where
  now : Int
  steps : Nat := 0
  channels : List GuideChannel := []
  channelsLoadedAt : Int := 0
  channelsLastFailedAt : Int := 0
  groupsLastFailedAt : Int := 0
  channelsGeneration : Nat := 0
  /-- `m_epgByChannelNumber`, `none` where it is cleared. -/
  epgByChannelNumber : Option Guide := none
  epgLoadedAt : Int := 0
  epgLastFailedAt : Int := 0
  epgDurableFailureCount : Nat := 0
  epgGeneration : Nat := 0
  epgRefetchDueAt : Int := 0
  channelsFetchMutex : Option Thread := none
  epgFetchMutex : Option Thread := none
  channelLoad : Thread → ChannelLoad
  guideLoad : Thread → GuideLoad
  /-- The event a thread is handling, and its reading of the clock. -/
  handling : Thread → Option (RefreshEventKind × Int)
  /-- The steps the fetches of the two caches began at, 0 before the first. -/
  channelsBeganAt : Nat := 0
  guideBeganAt : Nat := 0
  /-- The step of the last detected renumbering, 0 before the first. -/
  renumberedAt : Nat := 0
  /-- The step of the last handled M3U refresh event, 0 before the first. -/
  channelsSyncedAt : Nat := 0
  /-- The times of the guide events handled and of the renumberings detected. -/
  guideEvents : List Int := []

/-- A step of a thread, or of the clock. -/
inductive GuideEvent (Thread Guide : Type)
  | clock (elapsed : Nat)
  | channelsEnter (t : Thread)
  | channelsGate (t : Thread)
  | channelsLock (t : Thread)
  | channelsGateAgain (t : Thread)
  | channelsRequest (t : Thread)
  /-- `none` is a failure. -/
  | channelsAnswer (t : Thread) (answer : Option (List GuideChannel))
  | channelsCommit (t : Thread) (groupsOk : Bool)
  | channelsReturn (t : Thread)
  | guideEnter (t : Thread)
  | guideGate (t : Thread)
  | guideLock (t : Thread)
  | guideGateAgain (t : Thread)
  /-- The look at the age of the channel list. -/
  | guideCheckChannels (t : Thread)
  /-- The forced refresh of the channels has returned. -/
  | guideChannelsReturn (t : Thread)
  | guideGeneration (t : Thread)
  | guideRequest (t : Thread)
  | guideFetchFailed (t : Thread) (httpStatus : Int) (guideUnusable : Bool)
  | guideParseFailed (t : Thread)
  | guideCommit (t : Thread) (parsed : Guide)
  | refreshEvent (t : Thread) (kind : RefreshEventKind)
  | refreshEventHandled (t : Thread)
  | systemWake

namespace GuideCaches

variable {Thread Guide : Type} [DecidableEq Thread]

/-- A thread's own slot. -/
def setAt {α : Type} (slots : Thread → α) (t : Thread) (value : α) : Thread → α :=
  fun t' => if t' = t then value else slots t'

def setChannelLoad (s : GuideCaches Thread Guide) (t : Thread) (load : ChannelLoad) :
    GuideCaches Thread Guide :=
  { s with channelLoad := setAt s.channelLoad t load }

def setGuideLoad (s : GuideCaches Thread Guide) (t : Thread) (load : GuideLoad) :
    GuideCaches Thread Guide :=
  { s with guideLoad := setAt s.guideLoad t load }

/-! ## EnsureChannelsLoaded -/

/-- The gate of `EnsureChannelsLoaded`. -/
def channelsWanted (c : RefreshSettings) (s : GuideCaches Thread Guide) (now : Int)
    (forceStale : Bool) : Bool :=
  shouldFetchChannels s.channelsLoadedAt s.channelsLastFailedAt s.groupsLastFailedAt now
    c.channelInterval (seconds (60 * kChannelEpgFailureRetryMinutes)) forceStale

/-- `EnsureChannelsLoaded` returns, and with it goes its fetch mutex. -/
def channelsReturns (s : GuideCaches Thread Guide) (t : Thread) (result : Bool) :
    GuideCaches Thread Guide :=
  { s.setChannelLoad t (.returned result) with channelsFetchMutex := none }

/-- The part of the commit that a detected renumbering adds. -/
def renumbered (s : GuideCaches Thread Guide) : GuideCaches Thread Guide :=
  { s with
    epgLoadedAt := 0
    epgByChannelNumber := none
    epgGeneration := s.epgGeneration + 1
    epgRefetchDueAt := s.now + kGuideRefetchAfterRenumber
    renumberedAt := s.steps + 1
    guideEvents := s.now :: s.guideEvents }

/-- The commit of a channel list. -/
def commitChannels (c : RefreshSettings) (s : GuideCaches Thread Guide)
    (generationAtStart beganAt : Nat) (channels : List GuideChannel) (groupsOk : Bool) :
    GuideCaches Thread Guide :=
  let committed :=
    { s with
      channels
      channelsBeganAt := beganAt
      channelsLoadedAt :=
        if isFetchStillCurrent generationAtStart s.channelsGeneration then s.now
        else markStaleForWake s.now s.now c.channelInterval
      channelsLastFailedAt := 0
      groupsLastFailedAt := if groupsOk then 0 else s.now }
  if haveChannelNumbersChanged s.channels channels then committed.renumbered else committed

/-! ## EnsureEpgLoaded -/

/-- `fetchWanted`. -/
def guideWanted (c : RefreshSettings) (s : GuideCaches Thread Guide) (now : Int) : Bool :=
  shouldAttemptGuideFetch s.epgLoadedAt s.epgRefetchDueAt s.epgLastFailedAt
    s.epgDurableFailureCount now c.epgInterval (seconds (60 * kChannelEpgFailureRetryMinutes))

/-- `EnsureEpgLoaded` returns, and with it goes its fetch mutex. -/
def guideReturns (s : GuideCaches Thread Guide) (t : Thread) : GuideCaches Thread Guide :=
  { s.setGuideLoad t .idle with epgFetchMutex := none }

/-- The commit of a guide whose generation is still the cache's. -/
def commitGuide (s : GuideCaches Thread Guide) (seen : SeenRefetch) (beganAt : Nat)
    (parsed : Guide) : GuideCaches Thread Guide :=
  { s with
    epgByChannelNumber := some parsed
    guideBeganAt := beganAt
    epgLoadedAt := s.now
    epgLastFailedAt := 0
    epgDurableFailureCount := 0
    epgRefetchDueAt :=
      if seen.serving && s.epgRefetchDueAt == seen.dueAt then 0 else s.epgRefetchDueAt }

/-! ## the events -/

/-- `HandleRefreshEvent`, under the mutex; `now` was read ahead of it. -/
def handleRefreshEvent (c : RefreshSettings) (s : GuideCaches Thread Guide) (now : Int) :
    RefreshEventKind → GuideCaches Thread Guide
  | .guideParsed =>
      { s with
        epgRefetchDueAt := scheduleGuideRefetchForEvent s.epgRefetchDueAt now
        guideEvents := now :: s.guideEvents }
  | .channelsSynced =>
      { s with
        channelsLoadedAt := markStaleForWake s.channelsLoadedAt now c.channelInterval
        channelsGeneration := s.channelsGeneration + 1
        channelsSyncedAt := s.steps + 1 }

/-- What `OnSystemWake` does to the two caches. -/
def systemWake (c : RefreshSettings) (s : GuideCaches Thread Guide) : GuideCaches Thread Guide :=
  { s with
    channelsLoadedAt := markStaleForWake s.channelsLoadedAt s.now c.channelInterval
    channelsGeneration := s.channelsGeneration + 1
    epgGeneration := s.epgGeneration + 1
    epgLoadedAt := markStaleForWake s.epgLoadedAt s.now c.epgInterval
    epgLastFailedAt := 0
    epgDurableFailureCount := 0 }

/-! ## the steps -/

/-- The step taken, but for its number. -/
def act (c : RefreshSettings) (s : GuideCaches Thread Guide) :
    GuideEvent Thread Guide → Option (GuideCaches Thread Guide)
  | .clock elapsed => some { s with now := s.now + elapsed }
  | .channelsEnter t =>
      match s.channelLoad t, (s.guideLoad t).forceStale with
      | .idle, some forceStale => some (s.setChannelLoad t (.entered s.now forceStale))
      | _, _ => none
  | .channelsGate t =>
      match s.channelLoad t with
      | .entered now forceStale =>
          if s.channelsWanted c now forceStale then
            some (s.setChannelLoad t (.gated now forceStale))
          else some (s.setChannelLoad t (.returned false))
      | _ => none
  | .channelsLock t =>
      match s.channelLoad t, s.channelsFetchMutex with
      | .gated now forceStale, none =>
          some { s.setChannelLoad t (.locked now forceStale) with channelsFetchMutex := some t }
      | _, _ => none
  | .channelsGateAgain t =>
      match s.channelLoad t with
      | .locked now forceStale =>
          if s.channelsLoadedAt > now then some (s.channelsReturns t true)
          else if s.channelsWanted c now forceStale then
            some (s.setChannelLoad t (.admitted s.channelsGeneration))
          else some (s.channelsReturns t false)
      | _ => none
  | .channelsRequest t =>
      match s.channelLoad t with
      | .admitted generation => some (s.setChannelLoad t (.fetching generation (s.steps + 1)))
      | _ => none
  | .channelsAnswer t answer =>
      match s.channelLoad t, answer with
      | .fetching generation beganAt, some channels =>
          some (s.setChannelLoad t (.fetched generation beganAt channels))
      | .fetching _ _, none =>
          some { s.channelsReturns t false with channelsLastFailedAt := s.now }
      | _, _ => none
  | .channelsCommit t groupsOk =>
      match s.channelLoad t with
      | .fetched generation beganAt channels =>
          some ((s.commitChannels c generation beganAt channels groupsOk).channelsReturns t true)
      | _ => none
  | .channelsReturn t =>
      match s.channelLoad t, s.guideLoad t with
      | .returned _, .idle => some (s.setChannelLoad t .idle)
      | _, _ => none
  | .guideEnter t =>
      if s.channelLoad t = .idle ∧ s.guideLoad t = .idle then
        some (s.setGuideLoad t (.entered s.now))
      else none
  | .guideGate t =>
      match s.guideLoad t with
      | .entered now =>
          if s.guideWanted c now then some (s.setGuideLoad t (.gated now))
          else some (s.setGuideLoad t .idle)
      | _ => none
  | .guideLock t =>
      match s.guideLoad t, s.epgFetchMutex with
      | .gated now, none => some { s.setGuideLoad t (.locked now) with epgFetchMutex := some t }
      | _, _ => none
  | .guideGateAgain t =>
      match s.guideLoad t with
      | .locked now =>
          if s.epgLoadedAt > now then some (s.guideReturns t)
          else if s.guideWanted c now then
            some (s.setGuideLoad t
              (.admitted now ⟨s.epgRefetchDueAt, isGuideRefetchDue s.epgRefetchDueAt now⟩))
          else some (s.guideReturns t)
      | _ => none
  | .guideCheckChannels t =>
      match s.guideLoad t with
      | .admitted now seen =>
          let channelsRecentlyLoaded := !isStaleSince s.channelsLoadedAt now
            (seconds (60 * kForceChannelRefreshMinAgeMinutes))
          if channelsRecentlyLoaded then some (s.setGuideLoad t (.refreshed seen))
          else some (s.setGuideLoad t (.refreshing seen))
      | _ => none
  | .guideChannelsReturn t =>
      match s.guideLoad t, s.channelLoad t with
      | .refreshing seen, .returned true =>
          some ((s.setChannelLoad t .idle).setGuideLoad t (.refreshed seen))
      | .refreshing _, .returned false =>
          some { (s.setChannelLoad t .idle).guideReturns t with epgLastFailedAt := s.now }
      | _, _ => none
  | .guideGeneration t =>
      match s.guideLoad t with
      | .refreshed seen => some (s.setGuideLoad t (.starting seen s.epgGeneration))
      | _ => none
  | .guideRequest t =>
      match s.guideLoad t with
      | .starting seen generation =>
          some (s.setGuideLoad t (.fetching seen generation (s.steps + 1) s.now))
      | _ => none
  | .guideFetchFailed t httpStatus guideUnusable =>
      match s.guideLoad t with
      | .fetching _ _ _ _ =>
          some { s.guideReturns t with
            epgLastFailedAt := s.now
            epgDurableFailureCount :=
              if shouldCountTowardEpgFailureBackoff httpStatus guideUnusable then
                s.epgDurableFailureCount + 1
              else 0 }
      | _ => none
  | .guideParseFailed t =>
      match s.guideLoad t with
      | .fetching _ _ _ _ =>
          some { s.guideReturns t with
            epgLastFailedAt := s.now
            epgDurableFailureCount := s.epgDurableFailureCount + 1 }
      | _ => none
  | .guideCommit t parsed =>
      match s.guideLoad t with
      | .fetching seen generation beganAt _ =>
          if isFetchStillCurrent generation s.epgGeneration then
            some ((s.commitGuide seen beganAt parsed).guideReturns t)
          else some (s.guideReturns t)
      | _ => none
  | .refreshEvent t kind =>
      match s.handling t with
      | none => some { s with handling := setAt s.handling t (some (kind, s.now)) }
      | some _ => none
  | .refreshEventHandled t =>
      match s.handling t with
      | some (kind, now) =>
          some { s.handleRefreshEvent c now kind with handling := setAt s.handling t none }
      | none => none
  | .systemWake => some (s.systemWake c)

/-- When time passes nothing else changes. -/
theorem act_clock (c : RefreshSettings) (s : GuideCaches Thread Guide) (elapsed : Nat) :
    s.act c (.clock elapsed) = some { s with now := s.now + elapsed } := by
  simp only [act]

def step (c : RefreshSettings) (s : GuideCaches Thread Guide) (e : GuideEvent Thread Guide) :
    Option (GuideCaches Thread Guide) :=
  (s.act c e).map fun s' => { s' with steps := s.steps + 1 }

/-- The caches before any load; the clock counts from some time in the past. -/
def init (now : Nat) : GuideCaches Thread Guide where
  now
  channelLoad := fun _ => .idle
  guideLoad := fun _ => .idle
  handling := fun _ => none

end GuideCaches

end DispatcharrPvr
