import DispatcharrPvr.Staleness
import Mathlib.Algebra.Group.Int.Defs

/-!
# LiveTimeshift.TailWait

How long a live read waits at the tail (`CatchUpUtil.h`, the tail of
`ReadLiveTimeshiftStreamOnce`).  A read hands back after a slice, so the wait
is counted over the reads of an episode, and a stream is given up only when its
whole budget has been waited at one position (`tailWait_budget`).

A `steady_clock::time_point` is its count since the epoch, in nanoseconds.
-/

namespace DispatcharrPvr

/-! ## CatchUpUtil.h -/

/-- `duration_cast<milliseconds>`. -/
def milliseconds (elapsed : Int) : Int := elapsed.tdiv 1000000

/-- `ComputeCatchUpAttempts`. -/
def computeCatchUpAttempts (likelySeekProbe : Bool)
    (segmentDurationEstimateMs catchUpSleepMs : Int) : Int :=
  if likelySeekProbe then 1 else (segmentDurationEstimateMs * 3).tdiv catchUpSleepMs + 1

/-- `IsLikelySeekProbe`. -/
def isLikelySeekProbe (position lastShortGiveUpPosition lastSeekTime now seekProbeWindow : Int) :
    Bool :=
  if position = lastShortGiveUpPosition then false
  else if lastSeekTime = 0 then false
  else now - lastSeekTime < seekProbeWindow

/-- `ComputeShortGiveUpPosition`. -/
def computeShortGiveUpPosition (likelySeekProbe caughtUp : Bool) (position : Int) : Int :=
  if likelySeekProbe && !caughtUp then position else -1

/-- `kTailWaitEpisodeGapMs`. -/
def kTailWaitEpisodeGapMs : Int := 3000

/-- `TailWaitEpisode`. -/
structure TailWaitEpisode where
  position : Int := -1
  start : Int := 0
  lastCall : Int := 0
deriving DecidableEq, Repr

attribute [ext] TailWaitEpisode

namespace TailWaitEpisode

/-- Whether `Enter` starts a new episode. -/
def isFresh (e : TailWaitEpisode) (position now : Int) : Bool :=
  e.position ≠ position || e.lastCall = 0 || milliseconds (now - e.lastCall) > kTailWaitEpisodeGapMs

theorem isFresh_empty {position now : Int} (h : 0 ≤ position) :
    isFresh {} position now = true := by
  have hne : (-1 : Int) ≠ position := by omega
  simp [isFresh, hne]

/-- `Enter`. -/
def enter (e : TailWaitEpisode) (position now : Int) : TailWaitEpisode :=
  if e.isFresh position now then { position, start := now, lastCall := now }
  else { e with lastCall := now }

/-- `Touch`. -/
def touch (e : TailWaitEpisode) (now : Int) : TailWaitEpisode := { e with lastCall := now }

/-- `WaitedMs`. -/
def waitedMs (e : TailWaitEpisode) (now : Int) : Int :=
  if e.position < 0 then 0 else milliseconds (now - e.start)

@[simp] theorem waitedMs_touch (e : TailWaitEpisode) (now later : Int) :
    (e.touch now).waitedMs later = e.waitedMs later := rfl

@[simp] theorem position_enter (e : TailWaitEpisode) (position now : Int) :
    (e.enter position now).position = position := by
  unfold enter
  split
  · rfl
  · next hold =>
      simp only [isFresh, Bool.or_eq_true, decide_eq_true_eq, not_or, Decidable.not_not] at hold
      exact hold.1.1

@[simp] theorem lastCall_enter (e : TailWaitEpisode) (position now : Int) :
    (e.enter position now).lastCall = now := by
  unfold enter
  split <;> rfl

theorem start_enter (e : TailWaitEpisode) (position now : Int) :
    (e.enter position now).start = if e.isFresh position now then now else e.start := by
  unfold enter
  split <;> rfl

end TailWaitEpisode

/-- `TailWaitOutcome`. -/
inductive TailWaitOutcome where
  | retry
  | giveUp
deriving DecidableEq, Repr

/-- `DecideTailWaitOutcome`. -/
def decideTailWaitOutcome (likelySeekProbe : Bool) (waitedMs budgetMs : Int) : TailWaitOutcome :=
  if likelySeekProbe || waitedMs ≥ budgetMs then .giveUp else .retry

/-- `LiveTailGiveUpResult`. -/
def liveTailGiveUpResult (gaveUpOnSeekProbe : Bool) : Int := if gaveUpOnSeekProbe then -1 else 0

/-- `kLiveStallWaitBudgetMs`. -/
def kLiveStallWaitBudgetMs : Int := 70000

/-- `ComputeLiveTailWaitBudgetMs`. -/
def computeLiveTailWaitBudgetMs (likelySeekProbe : Bool) (normalBudgetMs : Int)
    (lastRefreshAnswered : Bool) : Int :=
  if likelySeekProbe || !lastRefreshAnswered then normalBudgetMs
  else max normalBudgetMs kLiveStallWaitBudgetMs

/-! ## a read at the tail -/

/-- `kCatchUpSleepMs`. -/
def kCatchUpSleepMs : Int := 250

/-- `kSeekProbeWindow`, 800 ms. -/
def kSeekProbeWindow : Int := 800000000

/-- How the attempts of a read at the tail end. -/
inductive TailEnding where
  /-- The stream was closed or another opened meanwhile. -/
  | otherStream
  /-- A refresh was fatal. -/
  | fatal
  /-- A refresh said that the buffer has ended. -/
  | ended
  | caughtUp
  | nothing
deriving DecidableEq, Repr

/-- What a read at the tail meets; `probedAt`, `enteredAt` and `afterWait` are
its readings of the clock. -/
structure TailRead where
  position : Int
  lastSeekTime : Int := 0
  probedAt : Int := 0
  enteredAt : Int
  segmentDurationEstimateMs : Int := 6000
  lastRefreshAnswered : Bool := true
  ending : TailEnding := .nothing
  afterWait : Int
deriving DecidableEq, Repr

/-- What becomes of it. -/
inductive TailResult where
  /-- -1 or 0, and the stream is not read on. -/
  | over (result : Int)
  | handedBack
  | gaveUp (result : Int)
  /-- There is data: the read goes on. -/
  | readsOn
deriving DecidableEq, Repr

/-- The members of the stream that its reads at the tail keep. -/
structure TailReader where
  tailWait : TailWaitEpisode := {}
  lastShortGiveUpPosition : Int := -1
deriving DecidableEq, Repr

/-- `likelySeekProbe`. -/
def TailReader.likelySeekProbe (s : TailReader) (r : TailRead) : Bool :=
  isLikelySeekProbe r.position s.lastShortGiveUpPosition r.lastSeekTime r.probedAt kSeekProbeWindow

/-- `tailBudgetMs`. -/
def TailRead.budgetMs (r : TailRead) (likelySeekProbe : Bool) : Int :=
  computeLiveTailWaitBudgetMs likelySeekProbe
    (computeCatchUpAttempts likelySeekProbe r.segmentDurationEstimateMs kCatchUpSleepMs *
      kCatchUpSleepMs) r.lastRefreshAnswered

/-- `ReadLiveTimeshiftStreamOnce` at the tail. -/
def TailReader.read (s : TailReader) (r : TailRead) : TailReader × TailResult :=
  let likelySeekProbe := s.likelySeekProbe r
  let tailWait := s.tailWait.enter r.position r.enteredAt
  match r.ending with
  | .otherStream => ({ s with tailWait }, .over (-1))
  | .fatal | .ended => ({ s with tailWait }, .over 0)
  | .caughtUp =>
      ({ tailWait := {}
         lastShortGiveUpPosition := computeShortGiveUpPosition likelySeekProbe true r.position },
        .readsOn)
  | .nothing =>
      match decideTailWaitOutcome likelySeekProbe (tailWait.waitedMs r.afterWait)
        (r.budgetMs likelySeekProbe) with
      | .retry => ({ s with tailWait := tailWait.touch r.afterWait }, .handedBack)
      | .giveUp =>
          ({ tailWait := {}
             lastShortGiveUpPosition := computeShortGiveUpPosition likelySeekProbe false r.position },
            .gaveUp (liveTailGiveUpResult likelySeekProbe))

@[simp] theorem TailReader.read_caughtUp (s : TailReader) {r : TailRead}
    (h : r.ending = .caughtUp) : (s.read r).2 = .readsOn := by
  unfold read
  rw [h]

/-- A stream is given up with 0 only past its budget, and never by a seek probe. -/
theorem TailReader.budget_of_gaveUp {s : TailReader} {r : TailRead}
    (h : (s.read r).2 = .gaveUp 0) :
    r.ending = .nothing ∧ s.likelySeekProbe r = false ∧
      r.budgetMs false ≤ (s.tailWait.enter r.position r.enteredAt).waitedMs r.afterWait := by
  unfold TailReader.read at h
  cases hending : r.ending <;> simp only [hending, reduceCtorEq] at h
  split at h
  · contradiction
  · next houtcome =>
      cases hprobe : s.likelySeekProbe r with
      | true => simp [liveTailGiveUpResult, hprobe] at h
      | false =>
          refine ⟨rfl, rfl, ?_⟩
          simpa [decideTailWaitOutcome, hprobe] using houtcome

/-! ## the run a read belongs to -/

/-- Reads with what became of them, the latest first. -/
abbrev TailHistory := List (TailRead × TailResult)

/-- The reads of a stream and what they left. -/
structure TailSession where
  reader : TailReader := {}
  history : TailHistory := []

def TailSession.next (s : TailSession) (r : TailRead) : TailSession where
  reader := (s.reader.read r).1
  history := (r, (s.reader.read r).2) :: s.history

/-- After some reads at the tail. -/
def TailSession.after (reads : List TailRead) : TailSession := reads.foldl .next {}

/-- The last a wait was heard of, if it goes on. -/
def lastHeard : TailRead × TailResult → Option Int
  | (r, .handedBack) => some r.afterWait
  | (r, .over _) => some r.enteredAt
  | (_, .gaveUp _) | (_, .readsOn) => none

/-- A read takes up the wait of the one before it: at the same position, and
without a long pause. -/
def takesUp (before : TailRead × TailResult) (r : TailRead) : Bool :=
  before.1.position = r.position &&
    (lastHeard before).any fun heard => milliseconds (r.enteredAt - heard) ≤ kTailWaitEpisodeGapMs

/-- The reads before `r`, as far back as each is taken up. -/
def runBefore (takesUp : TailRead × TailResult → TailRead → Bool) :
    TailHistory → TailRead → TailHistory
  | [], _ => []
  | before :: earlier, r =>
      if takesUp before r then before :: runBefore takesUp earlier before.1 else []

/-- The first read of the run. -/
def firstOfRun (takesUp : TailRead × TailResult → TailRead → Bool) (history : TailHistory)
    (r : TailRead) : TailRead :=
  ((runBefore takesUp history r).getLast?.map (·.1)).getD r

section Run

variable {takesUp : TailRead × TailResult → TailRead → Bool} {before : TailRead × TailResult}
  {earlier history : TailHistory} {r : TailRead}

theorem firstOfRun_cons (h : takesUp before r = true) :
    firstOfRun takesUp (before :: earlier) r = firstOfRun takesUp earlier before.1 := by
  unfold firstOfRun
  rw [runBefore, if_pos h, List.getLast?_cons]
  cases (runBefore takesUp earlier before.1).getLast? <;> rfl

theorem firstOfRun_of_not (h : ∀ before ∈ history.head?, takesUp before r = false) :
    firstOfRun takesUp history r = r := by
  cases history with
  | nil => rfl
  | cons before earlier =>
      have hnot := h before rfl
      simp [firstOfRun, runBefore, hnot]

end Run

/-- Every read of the run is at its position, and its wait went on. -/
theorem position_of_mem_runBefore {history : TailHistory} {r : TailRead}
    {before : TailRead × TailResult} (h : before ∈ runBefore takesUp history r) :
    before ∈ history ∧ before.1.position = r.position ∧ (lastHeard before).isSome := by
  induction history generalizing r with
  | nil => simp [runBefore] at h
  | cons latest earlier ih =>
      unfold runBefore at h
      split at h
      · next htakes =>
          simp only [takesUp, Bool.and_eq_true, decide_eq_true_eq] at htakes
          obtain ⟨hposition, hheard⟩ := htakes
          rcases List.mem_cons.mp h with rfl | hmem
          · refine ⟨by simp, hposition, ?_⟩
            cases hlast : lastHeard before with
            | none => simp [hlast] at hheard
            | some heard => rfl
          · obtain ⟨hearlier, hsame, hsome⟩ := ih hmem
            exact ⟨by simp [hearlier], hsame.trans hposition, hsome⟩
      · contradiction

/-! ## the wait is counted -/

/-- A position is not negative, and no clock reading is the epoch. -/
structure TailRead.Proper (r : TailRead) : Prop where
  position : 0 ≤ r.position
  enteredAt : r.enteredAt ≠ 0
  afterWait : r.afterWait ≠ 0

/-- The episode is the wait of the last read, if it goes on. -/
def TailSession.Counts (s : TailSession) : Prop :=
  match s.history with
  | [] => s.reader.tailWait = {}
  | latest :: earlier =>
      match lastHeard latest with
      | none => s.reader.tailWait = {}
      | some heard => heard ≠ 0 ∧ s.reader.tailWait =
          { position := latest.1.position
            start := (firstOfRun takesUp earlier latest.1).enteredAt
            lastCall := heard }

/-- **Spec of a read's arrival**: the episode it enters began with its run. -/
theorem TailSession.Counts.enter_eq {s : TailSession} (h : s.Counts) {r : TailRead}
    (hproper : r.Proper) :
    s.reader.tailWait.enter r.position r.enteredAt =
      { position := r.position
        start := (firstOfRun takesUp s.history r).enteredAt
        lastCall := r.enteredAt } := by
  have hposition := hproper.position
  suffices hstart : (s.reader.tailWait.enter r.position r.enteredAt).start =
      (firstOfRun takesUp s.history r).enteredAt by
    rw [← hstart]
    simp [TailWaitEpisode.ext_iff]
  rw [TailWaitEpisode.start_enter]
  unfold Counts at h
  cases hhistory : s.history with
  | nil =>
      simp only [hhistory] at h
      rw [h, TailWaitEpisode.isFresh_empty hposition, if_pos rfl, firstOfRun_of_not (by simp)]
  | cons latest earlier =>
      simp only [hhistory] at h
      cases hheard : lastHeard latest with
      | none =>
          simp only [hheard] at h
          have hnot : takesUp latest r = false := by simp [takesUp, hheard]
          rw [h, TailWaitEpisode.isFresh_empty hposition, if_pos rfl,
            firstOfRun_of_not (by simpa using hnot)]
      | some heard =>
          simp only [hheard] at h
          obtain ⟨hne, hepisode⟩ := h
          have hfresh : s.reader.tailWait.isFresh r.position r.enteredAt = !takesUp latest r := by
            rw [hepisode]
            by_cases hsame : latest.1.position = r.position
            · by_cases hgap : milliseconds (r.enteredAt - heard) ≤ kTailWaitEpisodeGapMs
              · simp [TailWaitEpisode.isFresh, takesUp, hheard, hne, hsame, hgap,
                  Int.not_lt.mpr hgap]
              · simp [TailWaitEpisode.isFresh, takesUp, hheard, hne, hsame, hgap,
                  Int.not_le.mp hgap]
            · simp [TailWaitEpisode.isFresh, takesUp, hsame]
          rw [hfresh]
          cases htakes : takesUp latest r with
          | true =>
              rw [firstOfRun_cons htakes, hepisode]
              rfl
          | false =>
              rw [firstOfRun_of_not (by simpa using htakes)]
              rfl

/-- A read leaves the wait it was part of, or none. -/
theorem TailSession.Counts.next {s : TailSession} (h : s.Counts) {r : TailRead}
    (hproper : r.Proper) : (s.next r).Counts := by
  have henter := h.enter_eq hproper
  unfold Counts TailSession.next TailReader.read
  simp only [henter]
  cases r.ending with
  | otherStream => exact ⟨hproper.enteredAt, rfl⟩
  | fatal => exact ⟨hproper.enteredAt, rfl⟩
  | ended => exact ⟨hproper.enteredAt, rfl⟩
  | caughtUp => rfl
  | nothing =>
      dsimp only
      generalize decideTailWaitOutcome _ _ _ = outcome
      cases outcome with
      | retry => exact ⟨hproper.afterWait, rfl⟩
      | giveUp => rfl

/-- A wait goes on only over reads that found no data. -/
def TailSession.WaitsWithoutData (s : TailSession) : Prop :=
  ∀ before ∈ s.history, (lastHeard before).isSome → before.1.ending ≠ .caughtUp

theorem TailSession.WaitsWithoutData.next {s : TailSession} (h : s.WaitsWithoutData)
    (r : TailRead) : (s.next r).WaitsWithoutData := by
  intro before hmem hheard hcaughtUp
  rcases List.mem_cons.mp hmem with rfl | hmem
  · simp [TailReader.read_caughtUp _ hcaughtUp, lastHeard] at hheard
  · exact h before hmem hheard hcaughtUp

theorem TailSession.after_inv {reads : List TailRead} (hproper : ∀ r ∈ reads, r.Proper) :
    (TailSession.after reads).Counts ∧ (TailSession.after reads).WaitsWithoutData := by
  have hstart : ({} : TailSession).Counts ∧ ({} : TailSession).WaitsWithoutData :=
    ⟨rfl, by simp [WaitsWithoutData]⟩
  suffices hfold : ∀ s : TailSession, s.Counts ∧ s.WaitsWithoutData →
      (reads.foldl .next s).Counts ∧ (reads.foldl .next s).WaitsWithoutData from hfold {} hstart
  induction reads with
  | nil => exact fun s h => h
  | cons r reads ih =>
      intro s ⟨hcounts, hquiet⟩
      have hnext := hcounts.next (hproper r (by simp))
      exact ih (fun later hmem => hproper later (by simp [hmem])) _ ⟨hnext, hquiet.next r⟩

/-- **The tail wait budget**: over any reads at the tail, the wait reported is
the time since the first read of the run, a run without data at one position;
the stream is given up only when the run has waited its whole budget, and a read
that takes no wait up begins a new one. -/
theorem tailWait_budget (reads : List TailRead) (r : TailRead)
    (hproper : ∀ read ∈ r :: reads, read.Proper) :
    let s := TailSession.after reads
    let first := firstOfRun takesUp s.history r
    (∀ now, (s.reader.tailWait.enter r.position r.enteredAt).waitedMs now =
      milliseconds (now - first.enteredAt)) ∧
    ((s.reader.read r).2 = .gaveUp 0 →
      r.ending = .nothing ∧
      r.budgetMs false ≤ milliseconds (r.afterWait - first.enteredAt)) ∧
    (∀ before ∈ runBefore takesUp s.history r,
      before.1.position = r.position ∧ before.1.ending ≠ .caughtUp) ∧
    ((∀ latest ∈ s.history.head?, takesUp latest r = false) → first = r) := by
  intro s first
  have hr : r.Proper := hproper r (by simp)
  obtain ⟨hcounts, hquiet⟩ : s.Counts ∧ s.WaitsWithoutData :=
    TailSession.after_inv fun read hmem => hproper read (by simp [hmem])
  have hwaited : ∀ now, (s.reader.tailWait.enter r.position r.enteredAt).waitedMs now =
      milliseconds (now - first.enteredAt) := by
    intro now
    rw [hcounts.enter_eq hr, TailWaitEpisode.waitedMs, if_neg (by simpa using hr.position)]
  refine ⟨hwaited, fun hgaveUp => ?_, fun before hmem => ?_, firstOfRun_of_not⟩
  · obtain ⟨hending, -, hbudget⟩ := TailReader.budget_of_gaveUp hgaveUp
    exact ⟨hending, by rwa [← hwaited]⟩
  · obtain ⟨hhistory, hposition, hheard⟩ := position_of_mem_runBefore hmem
    exact ⟨hposition, hquiet before hhistory hheard⟩

/-- Two slices of a stall of 74 s. -/
theorem tailWait_budget_stall :
    let slice : TailRead := { position := 100, enteredAt := 10 ^ 9, afterWait := 2 * 10 ^ 9 }
    let last : TailRead := { position := 100, enteredAt := 2 * 10 ^ 9, afterWait := 75 * 10 ^ 9 }
    let s := TailSession.after [slice]
    (s.reader.read last).2 = .gaveUp 0 ∧
      70000 ≤ milliseconds (last.afterWait - (firstOfRun takesUp s.history last).enteredAt) := by
  intro slice last s
  have hproper : ∀ read ∈ [last, slice], read.Proper := by
    intro read hmem
    simp only [List.mem_cons, List.not_mem_nil, or_false] at hmem
    rcases hmem with rfl | rfl
    · exact ⟨by decide, by decide, by decide⟩
    · exact ⟨by decide, by decide, by decide⟩
  have hgaveUp : (s.reader.read last).2 = .gaveUp 0 := by decide
  exact ⟨hgaveUp, ((tailWait_budget [slice] last hproper).2.1 hgaveUp).2⟩

/-- The reads of one position are not all one run: a negative position is never
waited at, and neither a seek probe that gives up nor a read at the clock's epoch
is taken up. -/
theorem tailWait_not_since_first :
    let samePosition := fun (before : TailRead × TailResult) (r : TailRead) =>
      decide (before.1.position = r.position ∧
        milliseconds (r.enteredAt - before.1.afterWait) ≤ kTailWaitEpisodeGapMs)
    let sinceFirst := fun (reads : List TailRead) (r : TailRead) (now : Int) =>
      let s := TailSession.after reads
      decide ((s.reader.tailWait.enter r.position r.enteredAt).waitedMs now =
        milliseconds (now - (firstOfRun samePosition s.history r).enteredAt))
    let negative : TailRead := { position := -2, enteredAt := 10 ^ 9, afterWait := 2 * 10 ^ 9 }
    let probe : TailRead :=
      { position := 100, lastSeekTime := 10 ^ 9, probedAt := 10 ^ 9 + 10 ^ 8
        enteredAt := 10 ^ 9 + 10 ^ 8, afterWait := 2 * 10 ^ 9 }
    let epoch : TailRead := { position := 100, enteredAt := 0, afterWait := 0 }
    let later : TailRead := { position := 100, enteredAt := 2 * 10 ^ 9, afterWait := 3 * 10 ^ 9 }
    sinceFirst [] negative (2 * 10 ^ 9) = false ∧
      sinceFirst [probe] later (3 * 10 ^ 9) = false ∧
      sinceFirst [epoch] later (3 * 10 ^ 9) = false := by
  decide +kernel

end DispatcharrPvr
