import DispatcharrPvr.Lib.Runs
import DispatcharrPvr.RecurringRule
import DispatcharrPvr.Staleness
import DispatcharrPvr.TimerIdentity

/-!
# TimerCaches

The caches behind Kodi's recordings and timers: `EnsureRecordingsLoaded`,
`EnsureTimerRulesLoaded` and the two invalidations, run by any number of
threads.  A step is what a thread does under `m_dataMutex`, a reading of the
clock, or the moment a request goes out; between two steps of a load anything
may happen, and an answer is picked at the commit or at the request behind it,
since nothing reads it before.

Beside what the code keeps, a cache records when its latest invalidation was
and when the fetch of its data began, both as numbers of steps.
-/

namespace DispatcharrPvr

/-- `kRecordingsAndTimersCacheTtlSeconds`. -/
def kRecordingsAndTimersCacheTtlSeconds : Int := 2

/-! ## one cache -/

/-- The generation a load read, and the step its fetch began at. -/
structure FetchTicket where
  generationAtStart : Nat
  beganAt : Nat
deriving DecidableEq, Repr

/-- A cache, its stamp and its generation. -/
structure FetchCache (α : Type) where
  data : α
  cachedAt : Int := 0
  generation : Nat := 0
  /-- The step of the latest invalidation, 0 before the first. -/
  invalidatedAt : Nat := 0
  /-- The step the fetch of `data` began at, 0 before the first. -/
  dataBeganAt : Nat := 0
deriving DecidableEq, Repr

namespace FetchCache

variable {α : Type}

/-- The stamp makes the cache count as fresh. -/
def Fresh (c : FetchCache α) (now : Int) : Prop :=
  isStaleSince c.cachedAt now (seconds kRecordingsAndTimersCacheTtlSeconds) = false

instance (c : FetchCache α) (now : Int) : Decidable (c.Fresh now) :=
  inferInstanceAs (Decidable (_ = _))

/-- The data came from a fetch that began after the latest invalidation. -/
def UpToDate (c : FetchCache α) : Prop := c.invalidatedAt < c.dataBeganAt

instance (c : FetchCache α) : Decidable c.UpToDate := inferInstanceAs (Decidable (_ < _))

/-- A fetch that began before the cache's latest invalidation. -/
def Outdates (c : FetchCache α) (ticket : FetchTicket) : Prop := ticket.beganAt ≤ c.invalidatedAt

instance (c : FetchCache α) (ticket : FetchTicket) : Decidable (c.Outdates ticket) :=
  inferInstanceAs (Decidable (_ ≤ _))

/-- The commit of a load that entered at `now`. -/
def commit (c : FetchCache α) (now : Int) (ticket : FetchTicket) (data : α) : FetchCache α :=
  { c with
    data
    dataBeganAt := ticket.beganAt
    cachedAt :=
      if isFetchStillCurrent ticket.generationAtStart c.generation then now else c.cachedAt }

/-- The invalidation of step `at`. -/
def invalidate (c : FetchCache α) (step : Nat) : FetchCache α :=
  { c with cachedAt := 0, generation := c.generation + 1, invalidatedAt := step }

end FetchCache

/-! ## the titles of the recordings -/

/-- The fields of `Recording` that its displayed title is made from. -/
structure ListedRecording where
  id : Int
  channelId : Int
  title : ByteString
  titleIsPlaceholder : Bool
deriving DecidableEq, Repr

/-- A channel's id and name. -/
structure NamedChannel where
  id : Int
  name : ByteString
deriving DecidableEq, Repr

/-- `DisplayTitleForRecording`. -/
def displayTitleForRecording (title : ByteString) (titleIsPlaceholder : Bool)
    (channelName : ByteString) : ByteString :=
  if titleIsPlaceholder && !channelName.isEmpty then channelName else title

/-- The title a recording is cached under. -/
def ListedRecording.withDisplayTitle (channels : List NamedChannel) (rec : ListedRecording) :
    ListedRecording :=
  if rec.titleIsPlaceholder then
    match channels.find? (·.id == rec.channelId) with
    | some channel =>
        { rec with
          title := displayTitleForRecording rec.title rec.titleIsPlaceholder channel.name }
    | none => rec
  else rec

/-! ## the loads -/

/-- How far a thread's load has come. -/
inductive CacheLoad
  | idle
  /-- `EnsureRecordingsLoaded`: the clock read, the gate passed, the request out. -/
  | recordingsEntered (now : Int)
  | recordingsGated (now : Int) (generationAtStart : Nat)
  | recordingsFetching (now : Int) (ticket : FetchTicket)
  /-- `EnsureTimerRulesLoaded`: the same, with a request for each of the two
  lists; `rules` is what the first one got, `none` a failure. -/
  | rulesEntered (now : Int)
  | rulesGated (now : Int) (seriesGenerationAtStart recurringGenerationAtStart : Nat)
  | seriesFetching (now : Int) (series : FetchTicket) (recurringGenerationAtStart : Nat)
  | seriesFetched (now : Int) (series : FetchTicket) (rules : Option (List TimerRule))
      (recurringGenerationAtStart : Nat)
  | recurringFetching (now : Int) (series : FetchTicket) (rules : Option (List TimerRule))
      (recurring : FetchTicket)
deriving DecidableEq, Repr

namespace CacheLoad

/-- The ticket of a load of the recordings that may commit next. -/
def recordingsTicket : CacheLoad → Option FetchTicket
  | .recordingsFetching _ ticket => some ticket
  | _ => none

/-- The ticket of a load that has series rules to commit. -/
def seriesTicket : CacheLoad → Option FetchTicket
  | .recurringFetching _ series (some _) _ => some series
  | _ => none

/-- The ticket of a load of the recurring rules that may commit next. -/
def recurringTicket : CacheLoad → Option FetchTicket
  | .recurringFetching _ _ _ recurring => some recurring
  | _ => none

end CacheLoad

/-- The caches of `PVRDispatcharr` and the loads under way. -/
structure TimerCaches (Thread : Type) where
  now : Int
  steps : Nat := 0
  channels : List NamedChannel := []
  recordings : FetchCache (List ListedRecording) := { data := [] }
  seriesRules : FetchCache (List TimerRule) := { data := [] }
  recurringRules : FetchCache (List RecurringRule) := { data := [] }
  load : Thread → CacheLoad

/-- A step of a thread, or of the world around the caches. -/
inductive CacheEvent (Thread : Type)
  | clock (elapsed : Nat)
  | channelsCommit (channels : List NamedChannel)
  /-- `InvalidateAndTriggerRecordingUpdate`. -/
  | invalidateRecordings
  /-- `InvalidateAndTriggerTimerUpdate`. -/
  | invalidateTimers
  | recordingsEnter (thread : Thread)
  | recordingsGate (thread : Thread)
  | recordingsRequest (thread : Thread)
  /-- The answer and, unless it is a failure (`none`), the commit. -/
  | recordingsCommit (thread : Thread) (answer : Option (List ListedRecording))
  | rulesEnter (thread : Thread)
  | rulesGate (thread : Thread)
  | seriesRequest (thread : Thread)
  | seriesAnswer (thread : Thread) (answer : Option (List TimerRule))
  | recurringRequest (thread : Thread)
  | rulesCommit (thread : Thread) (answer : Option (List RecurringRule))
deriving DecidableEq, Repr

namespace TimerCaches

variable {Thread : Type} [DecidableEq Thread]

def setLoad (s : TimerCaches Thread) (thread : Thread) (load : CacheLoad) : TimerCaches Thread :=
  { s with load := fun t => if t = thread then load else s.load t }

/-- The step taken, but for its number. -/
def act (s : TimerCaches Thread) : CacheEvent Thread → Option (TimerCaches Thread)
  | .clock elapsed => some { s with now := s.now + elapsed }
  | .channelsCommit channels => some { s with channels }
  | .invalidateRecordings => some { s with recordings := s.recordings.invalidate (s.steps + 1) }
  | .invalidateTimers =>
      some { s with
        recordings := s.recordings.invalidate (s.steps + 1)
        seriesRules := s.seriesRules.invalidate (s.steps + 1)
        recurringRules := s.recurringRules.invalidate (s.steps + 1) }
  | .recordingsEnter t =>
      if s.load t = .idle then some (s.setLoad t (.recordingsEntered s.now)) else none
  | .recordingsGate t =>
      match s.load t with
      | .recordingsEntered now =>
          if s.recordings.Fresh now then some (s.setLoad t .idle)
          else some (s.setLoad t (.recordingsGated now s.recordings.generation))
      | _ => none
  | .recordingsRequest t =>
      match s.load t with
      | .recordingsGated now generation =>
          some (s.setLoad t (.recordingsFetching now ⟨generation, s.steps + 1⟩))
      | _ => none
  | .recordingsCommit t answer =>
      match s.load t, answer with
      | .recordingsFetching now ticket, some recordings =>
          some { s.setLoad t .idle with
            recordings :=
              s.recordings.commit now ticket (recordings.map (·.withDisplayTitle s.channels)) }
      | .recordingsFetching _ _, none => some (s.setLoad t .idle)
      | _, _ => none
  | .rulesEnter t => if s.load t = .idle then some (s.setLoad t (.rulesEntered s.now)) else none
  | .rulesGate t =>
      match s.load t with
      | .rulesEntered now =>
          -- the stamp of the recurring rules has no say
          if s.seriesRules.Fresh now then some (s.setLoad t .idle)
          else
            some (s.setLoad t
              (.rulesGated now s.seriesRules.generation s.recurringRules.generation))
      | _ => none
  | .seriesRequest t =>
      match s.load t with
      | .rulesGated now series recurring =>
          some (s.setLoad t (.seriesFetching now ⟨series, s.steps + 1⟩ recurring))
      | _ => none
  | .seriesAnswer t answer =>
      match s.load t with
      | .seriesFetching now series recurring =>
          some (s.setLoad t (.seriesFetched now series answer recurring))
      | _ => none
  | .recurringRequest t =>
      match s.load t with
      | .seriesFetched now series rules recurring =>
          some (s.setLoad t (.recurringFetching now series rules ⟨recurring, s.steps + 1⟩))
      | _ => none
  | .rulesCommit t answer =>
      match s.load t with
      | .recurringFetching now series rules recurring =>
          some { s.setLoad t .idle with
            seriesRules := rules.elim s.seriesRules (s.seriesRules.commit now series)
            recurringRules := answer.elim s.recurringRules (s.recurringRules.commit now recurring) }
      | _ => none

def step (s : TimerCaches Thread) (e : CacheEvent Thread) : Option (TimerCaches Thread) :=
  (s.act e).map fun s' => { s' with steps := s.steps + 1 }

/-- The caches before any load. -/
def init (now : Int) : TimerCaches Thread := { now, load := fun _ => .idle }

/-- No cache calls data fresh that was fetched before its latest invalidation. -/
def NoOldDataFresh (s : TimerCaches Thread) : Prop :=
  (s.recordings.Fresh s.now → s.recordings.UpToDate) ∧
    (s.seriesRules.Fresh s.now → s.seriesRules.UpToDate) ∧
    (s.recurringRules.Fresh s.now → s.recurringRules.UpToDate)

instance (s : TimerCaches Thread) : Decidable s.NoOldDataFresh :=
  inferInstanceAs (Decidable (_ ∧ _ ∧ _))

/-- The step does not commit a fetch that began before its cache's latest
invalidation while that cache counts as fresh. -/
def CommitsNoOldData (s : TimerCaches Thread) : CacheEvent Thread → Prop
  | .recordingsCommit t answer =>
      answer.isSome → ∀ ticket ∈ (s.load t).recordingsTicket,
        s.recordings.Fresh s.now → ¬ s.recordings.Outdates ticket
  | .rulesCommit t answer =>
      (∀ ticket ∈ (s.load t).seriesTicket,
        s.seriesRules.Fresh s.now → ¬ s.seriesRules.Outdates ticket) ∧
      (answer.isSome → ∀ ticket ∈ (s.load t).recurringTicket,
        s.recurringRules.Fresh s.now → ¬ s.recurringRules.Outdates ticket)
  | _ => True

instance (s : TimerCaches Thread) : (e : CacheEvent Thread) → Decidable (s.CommitsNoOldData e)
  | .recordingsCommit _ _ => inferInstanceAs (Decidable (_ → _))
  | .rulesCommit _ _ => inferInstanceAs (Decidable (_ ∧ _))
  | .clock _ | .channelsCommit _ | .invalidateRecordings | .invalidateTimers | .recordingsEnter _
  | .recordingsGate _ | .recordingsRequest _ | .rulesEnter _ | .rulesGate _ | .seriesRequest _
  | .seriesAnswer _ _ | .recurringRequest _ => .isTrue trivial

end TimerCaches

end DispatcharrPvr
