import DispatcharrPvr.InProgressRecording.Rules

/-!
# InProgressRecording.Reads

A read, a seek, a length and a duration conduct themselves: a read finds only what
is in a segment, goes round its loops no more often than it may, and hands back
just what was handed over to it.
-/

namespace DispatcharrPvr

namespace RecordingClient

open Interleaving Interleaving.Program Interleaving.Discipline InProgressStream ReadLog

variable {S : Setting} {t : CallId}

/-! ## what a read knows -/

/-- Nothing has been handed over to the call, and it has handed back nothing. -/
structure Pending (t : CallId) (c : Client) : Prop where
  switching : c.switching ≠ some t
  delivered : c.deliveriesTo t = []
  answered : c.answersOf t = []

/-- The call has what it is about to hand back. -/
structure Ready (t : CallId) (result : Int) (bytes : ByteString) (c : Client) : Prop where
  switching : c.switching ≠ some t
  delivered : HandsBack (c.deliveriesTo t) result bytes
  answered : c.answersOf t = []

theorem lasting_pending : Lasting t (Pending t) := fun _ _ h hsees =>
  ⟨fun hmine => h.switching (hsees.switching.mp hmine), hsees.delivered.trans h.delivered,
    hsees.answers.trans h.answered⟩

theorem lasting_ready {result : Int} {bytes : ByteString} :
    Lasting t (Ready t result bytes) := fun _ _ h hsees =>
  ⟨fun hmine => h.switching (hsees.switching.mp hmine), hsees.delivered.symm ▸ h.delivered,
    hsees.answers.trans h.answered⟩

theorem Pending.ready {result : Int} {c : Client} (h : Pending t c) (hresult : result ≤ 0) :
    Ready t result [] c :=
  ⟨h.switching, .inr ⟨h.delivered, rfl, hresult⟩, h.answered⟩

/-- In its session, what was found is a segment of it. -/
def Found (session : Nat) : InProgressStream.Next → Client → Prop
  | .returns result, _ => result ≤ 0
  | .read read, c => session ≤ c.session ∧ Chosen session read c

theorem lasting_chosen (session : Nat) (read : RecordingRead) :
    Lasting t fun c => session ≤ c.session ∧ Chosen session read c := by
  rintro c c' ⟨hsince, hchosen⟩ hsees
  have hlater := hsees.session
  refine ⟨by omega, fun hsession => ?_, hchosen.start, hchosen.inside⟩
  exact (hsees.same (by omega)).2.2.subset (hchosen.segment (by omega))

/-- What a section of this session finds. -/
theorem found_put {session : Nat} {c : Client} {s : InProgressStream}
    {next : InProgressStream.Next} (hsession : c.session = session)
    (hkept : Kept (S.content c.session) c.stream s) (hfound : c.stream.FoundNext next) :
    Found session next (c.put s) := by
  cases next with
  | returns result => exact hfound
  | read read =>
      have hreads : c.stream.Reads read := hfound
      refine ⟨Nat.le_of_eq hsession.symm, fun _ => ?_, hreads.start, hreads.inside⟩
      exact (congrArg (·.segments) hkept.space).symm ▸ hreads.segment

/-- What a section comes to, in its session and elsewhere. -/
theorem within_cases {α : Type} {c c' : Client} {session : Nat} {elsewhere a : α}
    {f : InProgressStream → InProgressStream × α} (h : c.within session elsewhere f = (c', a)) :
    (c.session = session ∧ c' = c.put (f c.stream).1 ∧ a = (f c.stream).2) ∨
      c' = c ∧ a = elsewhere := by
  unfold Client.within at h
  split at h
  · next hsame =>
      obtain ⟨rfl, rfl⟩ := Prod.mk.inj h
      exact .inl ⟨(Client.stillSameStream_iff.mp hsame).2, rfl, rfl⟩
  · obtain ⟨rfl, rfl⟩ := Prod.mk.inj h
    exact .inr ⟨rfl, rfl⟩

section Read

variable {K : Client → Prop} {session size : Nat} {read : RecordingRead} {wait : TailWait}

/-! ## the wait at the tail -/

/-- What is found after an attempt; it is not the last one where a sleep follows. -/
def AfterAttempt (session : Nat) (wait : TailWait) (attempt : Nat) :
    InProgressStream.Attempt → Client → Prop
  | .leave next, c => Found session next c
  | .sleep, c => (attempt : Int) + 1 < wait.attempts ∧ session ≤ c.session

theorem keeps_afterRefresh (hK : Lasting t K) {attempt : Nat} :
    (conduct S).Keeps t (Free t fun c => K c ∧ session ≤ c.session)
      (call (.afterRefresh session wait attempt))
      (To fun a => Free t fun c => K c ∧ AfterAttempt session wait attempt a c) := by
  have hask : (conduct S).Keeps t (Free t fun c => K c ∧ session ≤ c.session)
      (call (.afterRefresh session wait attempt))
      (To fun a => Free t fun c => (K c ∧ session ≤ c.session) ∧
        AfterAttempt session wait attempt a c) :=
    keeps_ask trivial (hK.and (lasting_session session)).stable (fun _ _ _ => trivial)
      fun c choice c' a _ hc _ _ hexec => by
        have hsection : c.within session (.leave (.returns (-1)))
            (fun s => s.afterRefresh S.server.has c.clock wait attempt) = (c', a) := by
          simpa [Client.exec, Prod.ext_iff] using hexec
        rcases within_cases hsection with ⟨hsession, rfl, ha⟩ | ⟨rfl, rfl⟩
        · have hkept : Kept (S.content c.session) c.stream
              (c.stream.afterRefresh S.server.has c.clock wait attempt).1 := kept_afterRefresh
          have hfound : c.stream.FoundAttempt wait attempt a :=
            ha ▸ foundAttempt_afterRefresh
          cases a with
          | leave next => exact found_put hsession hkept hfound
          | sleep => exact ⟨hfound, hc.2⟩
        · show (-1 : Int) ≤ 0
          decide
  exact hask.post (To.mono fun _ _ h => ⟨h.1, h.2.1.1, h.2.2⟩)

/-- What is found after a sleep; nothing when the next attempt follows. -/
def AfterSleep (session : Nat) : Option InProgressStream.Next → Client → Prop
  | none, c => session ≤ c.session
  | some next, c => Found session next c

theorem keeps_afterSleep (hK : Lasting t K) :
    (conduct S).Keeps t (Free t fun c => K c ∧ session ≤ c.session)
      (call (.afterSleep session wait))
      (To fun a => Free t fun c => K c ∧ AfterSleep session a c) := by
  have hask : (conduct S).Keeps t (Free t fun c => K c ∧ session ≤ c.session)
      (call (.afterSleep session wait))
      (To fun a => Free t fun c => (K c ∧ session ≤ c.session) ∧ AfterSleep session a c) :=
    keeps_ask trivial (hK.and (lasting_session session)).stable (fun _ _ _ => trivial)
      fun c choice c' a _ hc _ _ hexec => by
        have hsection : c.within session (some (.returns (-1)))
            (fun s => s.afterSleep S.server.has wait) = (c', a) := by
          simpa [Client.exec, Prod.ext_iff] using hexec
        rcases within_cases hsection with ⟨hsession, rfl, ha⟩ | ⟨rfl, rfl⟩
        · have hkept : Kept (S.content c.session) c.stream
              (c.stream.afterSleep S.server.has wait).1 := kept_afterSleep
          cases a with
          | none => exact hc.2
          | some next => exact found_put hsession hkept (foundNext_afterSleep ha.symm)
        · show (-1 : Int) ≤ 0
          decide
  exact hask.post (To.mono fun _ _ h => ⟨h.1, h.2.1.1, h.2.2⟩)

/-- **A wait at the tail** ends within its attempts, and lets go of the stream only
for what is there. -/
theorem keeps_waitAtTail (hK : Lasting t K) (left attempt : Nat) (hleft : 0 < left)
    (hattempts : (attempt : Int) + left = wait.attempts) :
    (conduct S).Keeps t (Free t fun c => K c ∧ session ≤ c.session)
      (waitAtTail session wait left attempt)
      (To fun next => Free t fun c => K c ∧ Found session next c) := by
  induction left generalizing attempt with
  | zero => contradiction
  | succ left ih =>
      have hsince := hK.and (lasting_session (t := t) session)
      refine keeps_then (keeps_refresh hsince false fun _ => rfl) fun refresh => ?_
      refine keeps_then (keeps_afterRefresh hK) fun after => ?_
      cases after with
      | leave next => exact keeps_done fun c hc => hc
      | sleep =>
          intro c hinv hc
          -- the last attempt is not followed by a sleep
          have hmore : (attempt : Int) + 1 < wait.attempts := hc.2.2.1
          have hsleep : (conduct S).Keeps t (Free t fun c => K c ∧ session ≤ c.session)
              (call (.sleep kCatchUpSleepMs))
              (To fun _ => Free t fun c => K c ∧ session ≤ c.session) :=
            keeps_idly trivial hsince.stable fun _ _ => trivial
          refine keeps_then hsleep (fun _ => ?_) c hinv ⟨hc.1, hc.2.1, hc.2.2.2⟩
          refine keeps_then (keeps_afterSleep hK) fun found => ?_
          cases found with
          | some next => exact keeps_done fun c hc => hc
          | none => exact ih (attempt + 1) (by omega) (by omega)

/-! ## the fetch of a segment -/

section Fetch

variable {start : Int} {apiKeyRefreshed : Bool} {transientFailures : Nat} {fetch : Fetch}

/-- A fetch that is under way: it has slept after each of its failures. -/
structure Fetching (t : CallId) (session : Nat) (read : RecordingRead) (start : Int)
    (transientFailures : Nat) (c : Client) : Prop where
  pending : Pending t c
  slept : start + sleptMs transientFailures * 1000000 ≤ c.clock
  chosen : session ≤ c.session ∧ Chosen session read c

theorem lasting_fetching : Lasting t (Fetching t session read start transientFailures) :=
  fun c c' h hsees => ⟨lasting_pending c c' h.pending hsees, Int.le_trans h.slept hsees.clock,
    lasting_chosen session read c c' h.chosen hsees⟩

/-- Where a fetch is, by what its last section came to. -/
def AtFetch (S : Setting) (t : CallId) (session : Nat) (read : RecordingRead) (start : Int)
    (apiKeyRefreshed : Bool) (transientFailures : Nat) : Fetch → Client → Prop
  | .returns result, c => Pending t c ∧ result ≤ 0
  | .delivered wantSize bytes, c => Ready t wantSize bytes c
  | .unreadable, c | .notFound, c => Pending t c
  | .perform, c => Fetching t session read start transientFailures c
  | .refreshKey answer, c => Fetching t session read start transientFailures c ∧
      Answered (S.content session) read answer ∧ apiKeyRefreshed = false
  | .retry delayMs, c => Fetching t session read start transientFailures c ∧
      delayMs = segmentFetchRetryDelayMs (transientFailures + 1) ∧ transientFailures < 13

/-- What a section of a fetch comes to: nothing elsewhere, what it hands over, or
what it leaves where it was. -/
theorem fetches_cases {c c' : Client} {f : InProgressStream → InProgressStream × Fetch}
    {content : ByteString → ByteString} (h : c.fetches t session f = (c', fetch))
    (hpending : Pending t c)
    (hleaves : c.session = session → FetchLeaves content read c.stream (f c.stream)) :
    c'.curlOwner = c.curlOwner ∧ c'.refreshOwner = c.refreshOwner ∧
      ((c' = c ∧ fetch = .returns (-1)) ∨
        (∃ wantSize bytes, fetch = .delivered wantSize bytes ∧ Ready t wantSize bytes c') ∨
        (fetch = (f c.stream).2 ∧ (∀ wantSize bytes, fetch ≠ .delivered wantSize bytes) ∧
          Sees t c c')) := by
  unfold Client.fetches at h
  split at h
  · next hsame =>
      have hfetched := hleaves (Client.stillSameStream_iff.mp hsame).2
      generalize f c.stream = x at h hfetched
      cases hfetched with
      | rests hrests =>
          rw [handOver_of_rests hrests] at h
          obtain ⟨rfl, rfl⟩ := Prod.mk.inj h
          exact ⟨rfl, rfl, .inr (.inr ⟨rfl, hrests.nothing, (Rely.put hrests.kept).toSees⟩)⟩
      | @delivers s wantSize bytes hkept hread hposition hwant hbytes =>
          obtain ⟨rfl, rfl⟩ := Prod.mk.inj h
          refine ⟨rfl, rfl, .inr (.inl ⟨wantSize, bytes, rfl, hpending.switching, .inl ⟨?_, hwant⟩,
            hpending.answered⟩)⟩
          rw [Client.deliveriesTo_deliver, if_pos rfl, hpending.delivered, List.nil_append]
  · obtain ⟨rfl, rfl⟩ := Prod.mk.inj h
    exact ⟨rfl, rfl, .inl ⟨rfl, rfl⟩⟩

/-- An answer that is not about the key. -/
theorem atFetch_of_decided {c c' : Client}
    (hfetching : Fetching t session read start transientFailures c) (hsees : Sees t c c')
    (hdecided : Decided c.clock start transientFailures fetch)
    (hnothing : ∀ wantSize bytes, fetch ≠ .delivered wantSize bytes) :
    AtFetch S t session read start apiKeyRefreshed transientFailures fetch c' := by
  have hlater := lasting_fetching c c' hfetching hsees
  cases fetch with
  | returns result => exact ⟨hlater.pending, hdecided⟩
  | delivered wantSize bytes => exact absurd rfl (hnothing wantSize bytes)
  | perform | refreshKey => exact hdecided.elim
  | retry delayMs => exact ⟨hlater, hdecided.1, lt_thirteen hfetching.slept hdecided.2⟩
  | notFound | unreadable => exact hlater.pending

/-- A transfer begins, or that is it. -/
theorem atFetch_of_prepared {c : Client}
    (hfetching : Fetching t session read start transientFailures c) (hprepared : Prepared fetch) :
    AtFetch S t session read start apiKeyRefreshed transientFailures fetch c := by
  cases fetch with
  | perform => exact hfetching
  | returns result =>
      obtain ⟨result', hresult, heq⟩ := hprepared
      obtain rfl := Fetch.returns.inj heq
      exact ⟨hfetching.pending, hresult⟩
  | delivered | refreshKey | retry | notFound | unreadable =>
      obtain ⟨result', -, heq⟩ := hprepared
      cases heq

/-- Nothing elsewhere. -/
theorem atFetch_elsewhere {c : Client} (hpending : Pending t c) :
    AtFetch S t session read start apiKeyRefreshed transientFailures (.returns (-1)) c :=
  ⟨hpending, by decide⟩

/-! ### how often it goes on -/

theorem stepsLeft_decided {now : Int} (apiKeyRefreshed : Bool)
    (h : Decided now start transientFailures fetch) :
    stepsLeft apiKeyRefreshed transientFailures fetch + 2 ≤
      stepsLeft apiKeyRefreshed transientFailures .perform := by
  have hpos : 1 ≤ requestsLeft apiKeyRefreshed transientFailures := Nat.le_add_left _ _
  cases fetch with
  | perform | refreshKey => exact h.elim
  | returns | delivered | retry | notFound | unreadable =>
      simp only [stepsLeft]
      omega

theorem stepsLeft_prepared (apiKeyRefreshed : Bool) (transientFailures : Nat)
    (h : Prepared fetch) :
    stepsLeft apiKeyRefreshed transientFailures fetch ≤
      stepsLeft apiKeyRefreshed transientFailures .perform := by
  cases fetch with
  | perform => exact Nat.le_refl _
  | returns => exact Nat.zero_le _
  | delivered | refreshKey | retry | notFound | unreadable =>
      obtain ⟨result, -, heq⟩ := h
      cases heq

/-- With the key refreshed there is one request less. -/
theorem stepsLeft_rekeyed (transientFailures : Nat) (answer : SegmentAnswer) :
    stepsLeft true transientFailures .perform <
      stepsLeft false transientFailures (.refreshKey answer) := by
  simp only [stepsLeft, requestsLeft, Bool.false_eq_true, if_false, if_true]
  omega

/-- After one more failure there is, too. -/
theorem stepsLeft_retried (apiKeyRefreshed : Bool) (delayMs : Int) (h : transientFailures < 13) :
    stepsLeft apiKeyRefreshed (transientFailures + 1) .perform <
      stepsLeft apiKeyRefreshed transientFailures (.retry delayMs) := by
  simp only [stepsLeft, requestsLeft]
  omega

/-! ### its sections -/

/-- The answer to a transfer, cut off at the size of the segment. -/
theorem keeps_perform :
    (conduct S).Keeps t
      (Knows t true false (Fetching t session read start transientFailures))
      (call (.perform session read))
      (To fun answer => Knows t true false fun c =>
        Fetching t session read start transientFailures c ∧
          Answered (S.content session) read answer) := by
  refine keeps_ask trivial lasting_fetching.stable (fun _ _ _ => trivial)
    fun c choice c' a _ _ hallowed _ hexec => ?_
  obtain ⟨rfl, ha⟩ := Prod.mk.inj (Option.some.inj hexec)
  obtain rfl := Except.ok.inj ha
  intro htransfer hcode
  have hwritten := FixedBufferSink.transfer_written
    { capacity := read.segment.byteSize.toNat } choice.chunks (Nat.zero_le _)
  rw [List.nil_append] at hwritten
  dsimp only
  rw [hwritten]
  exact (hallowed htransfer hcode).take _

theorem keeps_endFetch {answer : SegmentAnswer} :
    (conduct S).Keeps t
      (Knows t true false fun c => Fetching t session read start transientFailures c ∧
        Answered (S.content session) read answer)
      (call (.endFetch session size read answer apiKeyRefreshed transientFailures start))
      (To fun fetch => Knows t true false fun c =>
        AtFetch S t session read start apiKeyRefreshed transientFailures fetch c ∧
          stepsLeft apiKeyRefreshed transientFailures fetch <
            stepsLeft apiKeyRefreshed transientFailures .perform) := by
  have hpos : 0 < stepsLeft apiKeyRefreshed transientFailures .perform :=
    Nat.mul_pos (by decide) (Nat.succ_pos _)
  refine keeps_call (lasting_fetching.and (lasting_given _)).stable
    (fun c _ hc => ⟨hc.2.1.chosen.2, hc.2.2⟩) fun c choice c' fetch hinv hc _ _ hexec => ?_
  obtain ⟨hholds, hfetching, hanswered⟩ := hc
  have hsection : c.fetches t session (fun s => s.endFetch c.clock size (c.stillThere read)
      c.aborting read answer apiKeyRefreshed transientFailures start) = (c', fetch) := by
    simpa [Client.exec, Prod.ext_iff] using hexec
  obtain ⟨hcurl, hrefresh, hcases⟩ := fetches_cases hsection hfetching.pending fun hsession =>
    fetchLeaves_endFetch of_decide_eq_true (hfetching.chosen.2.reads hsession) hanswered
  refine ⟨⟨hcurl ▸ hholds.curl, hrefresh ▸ hholds.refresh⟩, ?_⟩
  rcases hcases with ⟨rfl, rfl⟩ | ⟨wantSize, bytes, rfl, hready⟩ | ⟨heq, hnothing, hsees⟩
  · exact ⟨atFetch_elsewhere hfetching.pending, hpos⟩
  · exact ⟨hready, hpos⟩
  · have hfound : fetch = .refreshKey answer ∧ apiKeyRefreshed = false ∨
        Decided c.clock start transientFailures fetch := heq ▸ decided_endFetch
    rcases hfound with ⟨rfl, hfirst⟩ | hdecided
    · exact ⟨⟨lasting_fetching c c' hfetching hsees, hanswered, hfirst⟩,
        Nat.sub_lt hpos Nat.one_pos⟩
    · have hfewer := stepsLeft_decided apiKeyRefreshed hdecided
      exact ⟨atFetch_of_decided hfetching hsees hdecided hnothing, by omega⟩

theorem keeps_afterKey {answer : SegmentAnswer} {regenerated : Bool} :
    (conduct S).Keeps t
      (Knows t true false fun c => Fetching t session read start transientFailures c ∧
        Answered (S.content session) read answer)
      (call (.afterKey session size read answer regenerated transientFailures start))
      (To fun fetch => Knows t true false fun c =>
        AtFetch S t session read start regenerated transientFailures fetch c ∧
          stepsLeft regenerated transientFailures fetch <
            stepsLeft false transientFailures (.refreshKey answer)) := by
  refine keeps_call (lasting_fetching.and (lasting_given _)).stable
    (fun c _ hc => ⟨hc.2.1.chosen.2, hc.2.2⟩) fun c choice c' fetch hinv hc _ _ hexec => ?_
  obtain ⟨hholds, hfetching, hanswered⟩ := hc
  have hsection : c.fetches t session (fun s => s.afterKey c.clock size (c.stillThere read)
      c.aborting choice.flag regenerated read answer transientFailures start) = (c', fetch) := by
    simpa [Client.exec, Prod.ext_iff] using hexec
  obtain ⟨hcurl, hrefresh, hcases⟩ := fetches_cases hsection hfetching.pending fun hsession =>
    fetchLeaves_afterKey of_decide_eq_true (hfetching.chosen.2.reads hsession) hanswered
  have hrekeyed := stepsLeft_rekeyed transientFailures answer
  have hpos := Nat.zero_lt_of_lt hrekeyed
  refine ⟨⟨hcurl ▸ hholds.curl, hrefresh ▸ hholds.refresh⟩, ?_⟩
  rcases hcases with ⟨rfl, rfl⟩ | ⟨wantSize, bytes, rfl, hready⟩ | ⟨heq, hnothing, hsees⟩
  · exact ⟨atFetch_elsewhere hfetching.pending, hpos⟩
  · exact ⟨hready, hpos⟩
  · have hfound : regenerated = true ∧ Prepared fetch ∨
        Decided c.clock start transientFailures fetch := heq ▸ decided_afterKey
    rcases hfound with ⟨rfl, hprepared⟩ | hdecided
    · exact ⟨atFetch_of_prepared (lasting_fetching c c' hfetching hsees) hprepared,
        Nat.lt_of_le_of_lt (stepsLeft_prepared true transientFailures hprepared) hrekeyed⟩
    · refine ⟨atFetch_of_decided hfetching hsees hdecided hnothing, ?_⟩
      have hfewer := stepsLeft_decided regenerated hdecided
      cases regenerated with
      | false =>
          simp only [stepsLeft] at hfewer ⊢
          omega
      | true => omega

/-- The sleep before a try that follows a failure. -/
theorem keeps_delay {delayMs : Int}
    (hdelay : delayMs = segmentFetchRetryDelayMs (transientFailures + 1)) :
    (conduct S).Keeps t (Knows t true false (Fetching t session read start transientFailures))
      (call (.sleep delayMs))
      (To fun _ => Knows t true false (Fetching t session read start (transientFailures + 1))) := by
  have hask : (conduct S).Keeps t
      (Knows t true false (Fetching t session read start transientFailures))
      (call (.sleep delayMs))
      (To fun _ => Knows t true false fun c =>
        Fetching t session read start transientFailures c ∧
          start + sleptMs (transientFailures + 1) * 1000000 ≤ c.clock) :=
    keeps_ask trivial lasting_fetching.stable (fun _ _ _ => trivial)
      fun c choice c' a _ hc _ _ hexec => by
        obtain ⟨rfl, -⟩ := Prod.mk.inj (Option.some.inj hexec)
        have hslept := hc.slept
        have hbounds := (segmentFetchRetryDelayMs_bounds (transientFailures + 1)).1
        show start + (sleptMs transientFailures + segmentFetchRetryDelayMs (transientFailures + 1)) *
          1000000 ≤ c.clock + max delayMs 0 * 1000000 + choice.longer
        omega
  exact hask.post (To.mono fun _ _ h => ⟨h.1, h.2.1.pending, h.2.2, h.2.1.chosen⟩)

theorem keeps_afterDelay (apiKeyRefreshed : Bool) :
    (conduct S).Keeps t (Knows t true false (Fetching t session read start transientFailures))
      (call (.afterDelay session))
      (To fun fetch => Knows t true false fun c =>
        AtFetch S t session read start apiKeyRefreshed transientFailures fetch c ∧
          stepsLeft apiKeyRefreshed transientFailures fetch ≤
            stepsLeft apiKeyRefreshed transientFailures .perform) := by
  have hask : (conduct S).Keeps t
      (Knows t true false (Fetching t session read start transientFailures))
      (call (.afterDelay session))
      (To fun fetch => Knows t true false fun c =>
        Fetching t session read start transientFailures c ∧ Prepared fetch) :=
    keeps_ask trivial lasting_fetching.stable (fun _ _ _ => trivial)
      fun c choice c' fetch _ hc _ _ hexec => by
        have hsection : c.within session (.returns (-1)) (fun s => s.prepare choice.flag) =
            (c', fetch) := by
          simpa [Client.exec, Prod.ext_iff] using hexec
        rcases within_cases hsection with ⟨-, rfl, rfl⟩ | ⟨rfl, rfl⟩
        · exact prepared_prepare choice.flag
        · exact ⟨-1, by decide, rfl⟩
  exact hask.post (To.mono fun fetch _ h =>
    ⟨h.1, atFetch_of_prepared h.2.1 h.2.2, stepsLeft_prepared _ _ h.2.2⟩)

/-- The refresh that a missing segment asks for is behind it. -/
theorem keeps_afterNotFound (read : RecordingRead) (start : Int) (apiKeyRefreshed : Bool)
    (transientFailures : Nat) :
    (conduct S).Keeps t (Knows t true false (Pending t)) (call (.afterNotFound session))
      (To fun fetch => Knows t true false fun c =>
        AtFetch S t session read start apiKeyRefreshed transientFailures fetch c ∧
          stepsLeft apiKeyRefreshed transientFailures fetch = 0) := by
  have hask : (conduct S).Keeps t (Knows t true false (Pending t)) (call (.afterNotFound session))
      (To fun fetch => Knows t true false fun c => Pending t c ∧
        (fetch = .unreadable ∨ ∃ result ≤ 0, fetch = .returns result)) :=
    keeps_ask trivial lasting_pending.stable (fun _ _ _ => trivial)
      fun c choice c' fetch _ _ _ _ hexec => by
        have hsection : c.within session (.returns (-1)) (fun s => s.afterNotFound c.clock) =
            (c', fetch) := by
          simpa [Client.exec, Prod.ext_iff] using hexec
        rcases within_cases hsection with ⟨-, rfl, rfl⟩ | ⟨rfl, rfl⟩
        · exact afterNotFound_ends
        · exact .inr ⟨-1, by decide, rfl⟩
  refine hask.post (To.mono fun fetch c h => ?_)
  obtain ⟨hholds, hpending, rfl | ⟨result, hresult, rfl⟩⟩ := h
  · exact ⟨hholds, hpending, rfl⟩
  · exact ⟨hholds, ⟨hpending, hresult⟩, rfl⟩

/-- A fetch that is over. -/
theorem keeps_fetchedAll (left : Nat)
    (hover : stepsLeft apiKeyRefreshed transientFailures fetch = 0) :
    (conduct S).Keeps t
      (Knows t true false (AtFetch S t session read start apiKeyRefreshed transientFailures fetch))
      (fetchOn session size read start left apiKeyRefreshed transientFailures fetch)
      (To fun answer => Knows t true false (Ready t answer.1 answer.2)) := by
  have hpos : 1 ≤ requestsLeft apiKeyRefreshed transientFailures := Nat.le_add_left _ _
  rw [fetchOn.eq_def]
  cases fetch with
  | perform | refreshKey | retry | notFound =>
      simp only [stepsLeft] at hover
      omega
  | returns result => exact keeps_done fun c hc => ⟨hc.1, hc.2.1.ready hc.2.2⟩
  | delivered wantSize bytes => exact keeps_done fun c hc => hc
  | unreadable =>
      have htell : (conduct S).Keeps t (Knows t true false (Pending t))
          (call (.notify unreadableNotice)) (To fun _ => Knows t true false (Pending t)) :=
        keeps_idly trivial lasting_pending.stable fun _ _ => trivial
      exact keeps_then htell fun _ => keeps_done fun c hc => ⟨hc.1, hc.2.ready (Int.le_refl 0)⟩

/-- **The loop of a fetch** ends within its steps, and hands back just what was handed
over to it. -/
theorem keeps_fetchOn (left : Nat)
    (hleft : stepsLeft apiKeyRefreshed transientFailures fetch ≤ left) :
    (conduct S).Keeps t
      (Knows t true false (AtFetch S t session read start apiKeyRefreshed transientFailures fetch))
      (fetchOn session size read start left apiKeyRefreshed transientFailures fetch)
      (To fun answer => Knows t true false (Ready t answer.1 answer.2)) := by
  induction left generalizing apiKeyRefreshed transientFailures fetch with
  | zero => exact keeps_fetchedAll 0 (Nat.le_zero.mp hleft)
  | succ left ih =>
      cases fetch with
      | returns | delivered | unreadable => exact keeps_fetchedAll (left + 1) rfl
      | perform =>
          refine keeps_then keeps_perform fun answer => ?_
          refine keeps_then keeps_endFetch fun fetch c hinv hc => ?_
          have hfewer := hc.2.2
          exact ih (by omega) c hinv ⟨hc.1, hc.2.1⟩
      | refreshKey answer =>
          intro c hinv hc
          obtain ⟨hfetching, hanswered, rfl⟩ := hc.2
          have hkey : (conduct S).Keeps t
              (Knows t true false fun c => Fetching t session read start transientFailures c ∧
                Answered (S.content session) read answer)
              (call .obtainKey)
              (To fun _ => Knows t true false fun c =>
                Fetching t session read start transientFailures c ∧
                  Answered (S.content session) read answer) :=
            keeps_idly trivial (lasting_fetching.and (lasting_given _)).stable fun _ _ => trivial
          refine keeps_then hkey (fun regenerated => ?_) c hinv ⟨hc.1, hfetching, hanswered⟩
          refine keeps_then keeps_afterKey fun fetch => ?_
          rw [Bool.false_or]
          intro c hinv hc
          have hfewer := hc.2.2
          exact ih (by omega) c hinv ⟨hc.1, hc.2.1⟩
      | retry delayMs =>
          intro c hinv hc
          obtain ⟨hfetching, hdelay, hfew⟩ := hc.2
          have hretried := stepsLeft_retried apiKeyRefreshed delayMs hfew
          refine keeps_then (keeps_delay hdelay) (fun _ => ?_) c hinv ⟨hc.1, hfetching⟩
          refine keeps_then (keeps_afterDelay apiKeyRefreshed) fun fetch c hinv hc => ?_
          have hfewer := hc.2.2
          exact ih (by omega) c hinv ⟨hc.1, hc.2.1⟩
      | notFound =>
          refine keeps_then (keeps_refresh lasting_pending false (fun h => by cases h)) fun _ => ?_
          refine keeps_then (keeps_afterNotFound read start apiKeyRefreshed transientFailures)
            fun fetch c hinv hc => ?_
          have hover := hc.2.2
          exact ih (by omega) c hinv ⟨hc.1, hc.2.1⟩

/-- A fetch begins. -/
theorem keeps_beginFetch :
    (conduct S).Keeps t
      (Knows t true false fun c => Pending t c ∧ session ≤ c.session ∧ Chosen session read c)
      (call (.beginFetch session size read))
      (To fun a => Knows t true false fun c => AtFetch S t session read a.1 false 0 a.2 c ∧
        stepsLeft false 0 a.2 ≤ stepsLeft false 0 .perform) := by
  refine keeps_call (lasting_pending.and (lasting_chosen session read)).stable
    (fun c _ hc => hc.2.2.2) fun c choice c' a hinv hc _ _ hexec => ?_
  obtain ⟨hholds, hpending, hchosen⟩ := hc
  obtain ⟨start, fetch⟩ := a
  have hsection : c.fetches t session (fun s => s.beginFetch size (c.stillThere read) choice.flag
      read) = (c', fetch) ∧ c.clock = start := by
    have hboth := Option.some.inj hexec
    simp only [Prod.mk.injEq, Except.ok.injEq] at hboth
    exact ⟨Prod.ext hboth.1 hboth.2.2, hboth.2.1⟩
  obtain ⟨hsection, rfl⟩ := hsection
  have hfetching : Fetching t session read c.clock 0 c := by
    refine ⟨hpending, ?_, hchosen⟩
    simp [sleptMs]
  obtain ⟨hcurl, hrefresh, hcases⟩ := fetches_cases hsection hpending fun hsession =>
    fetchLeaves_beginFetch of_decide_eq_true hinv.filled hinv.caches (hchosen.2.reads hsession)
  refine ⟨⟨hcurl ▸ hholds.curl, hrefresh ▸ hholds.refresh⟩, ?_⟩
  rcases hcases with ⟨rfl, rfl⟩ | ⟨wantSize, bytes, rfl, hready⟩ | ⟨heq, hnothing, hsees⟩
  · exact ⟨atFetch_elsewhere hpending, Nat.zero_le _⟩
  · exact ⟨hready, Nat.zero_le _⟩
  · have hprepared : Prepared fetch := by
      have hbegun : Prepared _ ∨ ∃ wantSize bytes,
          (c.stream.beginFetch size (c.stillThere read) choice.flag read).2 =
            .delivered wantSize bytes := prepared_beginFetch
      rcases hbegun with hprepared | ⟨wantSize, bytes, hdelivered⟩
      · exact heq ▸ hprepared
      · exact absurd (heq.trans hdelivered) (hnothing wantSize bytes)
    exact ⟨atFetch_of_prepared (lasting_fetching c c' hfetching hsees) hprepared,
      stepsLeft_prepared _ _ hprepared⟩

/-- **A fetch** holds the handle only while it lasts. -/
theorem keeps_fetchSegment :
    (conduct S).Keeps t (Free t fun c => Pending t c ∧ session ≤ c.session ∧ Chosen session read c)
      (fetchSegment session size read) (To fun answer => Free t (Ready t answer.1 answer.2)) := by
  refine keeps_then (keeps_lockCurl (lasting_pending.and (lasting_chosen session read))) fun _ => ?_
  refine keeps_then keeps_beginFetch fun a c hinv hc => ?_
  obtain ⟨start, fetch⟩ := a
  refine keeps_then (keeps_fetchOn _ hc.2.2) (fun answer => ?_) c hinv ⟨hc.1, hc.2.1⟩
  exact keeps_then (keeps_unlockCurl lasting_ready) fun _ => keeps_done fun c hc => hc

end Fetch

/-! ## the calls -/

theorem keeps_follow (next : InProgressStream.Next) :
    (conduct S).Keeps t (Free t fun c => Pending t c ∧ Found session next c)
      (follow session size next) (To fun answer => Free t (Ready t answer.1 answer.2)) := by
  cases next with
  | returns result => exact keeps_done fun c hc => ⟨hc.1, hc.2.1.ready hc.2.2⟩
  | read read => exact keeps_fetchSegment

/-- What a read finds on its arrival. -/
def FoundGoing (session : Nat) : InProgressStream.Going → Client → Prop
  | .next next, c => Found session next c
  | .await wait, c => 0 < wait.attempts ∧ session ≤ c.session

theorem keeps_arrive (hK : Lasting t K) :
    (conduct S).Keeps t (Free t K) (call (.arrive size))
      (To fun a => Free t fun c => K c ∧ FoundGoing a.1 a.2 c) := by
  refine keeps_ask trivial hK.stable (fun _ _ _ => trivial) fun c choice c' a _ _ _ _ hexec => ?_
  obtain ⟨rfl, ha⟩ := Prod.mk.inj (Option.some.inj hexec)
  obtain rfl := Except.ok.inj ha
  have hfound : c.stream.FoundGoing (c.stream.arrive S.server.has c.clock size) :=
    foundGoing_arrive
  dsimp only
  generalize c.stream.arrive S.server.has c.clock size = going at hfound
  cases going with
  | await wait => exact ⟨hfound, Nat.le_refl _⟩
  | next next =>
      have hput : Found c.session next (c.put c.stream) := found_put (S := S) rfl (.refl _) hfound
      rwa [Client.put_self] at hput

/-- **A read** hands back just what was handed over to it, or nothing. -/
theorem keeps_readInProgressRecordingStream (size : Nat) :
    (conduct S).Keeps t (Free t (Pending t)) (readInProgressRecordingStream size)
      (To fun answer => Free t (Ready t answer.1 answer.2)) := by
  refine keeps_then (keeps_arrive lasting_pending) fun arrived => ?_
  obtain ⟨session, going⟩ := arrived
  cases going with
  | next next => exact keeps_follow next
  | await wait =>
      intro c hinv hc
      have hattempts : 0 < wait.attempts := hc.2.2.1
      have hwait : (conduct S).Keeps t (Free t fun c => Pending t c ∧ session ≤ c.session)
          (waitAtTail session wait wait.attempts.toNat 0)
          (To fun next => Free t fun c => Pending t c ∧ Found session next c) :=
        keeps_waitAtTail lasting_pending _ 0 (by omega) (by omega)
      exact keeps_then hwait (fun next => keeps_follow next) c hinv ⟨hc.1, hc.2.1, hc.2.2.2⟩

/-- **A seek**. -/
theorem keeps_seek (hK : Lasting t K) (position whence : Int) :
    (conduct S).Keeps t (Free t K) (seekInProgressRecordingStream position whence)
      (To fun _ => Free t K) := by
  have hseek : (conduct S).Keeps t (Free t K) (call (.seek position whence))
      (To fun _ => Free t K) := keeps_idly trivial hK.stable fun _ _ => trivial
  have hbegin : (conduct S).Keeps t (Free t K) (call .beginSeek) (To fun _ => Free t K) :=
    keeps_idly trivial hK.stable fun _ _ => trivial
  refine keeps_then hbegin fun begun => ?_
  split
  · split
    · exact keeps_then (keeps_refresh hK false fun _ => rfl) fun _ => hseek
    · exact hseek
  · exact keeps_done fun c hc => hc

/-- **A length** or a duration: a question that a refresh comes before. -/
theorem keeps_length (hK : Lasting t K) (cmd : Cmd) (hquiet : Quiet cmd)
    (hpromise : ∀ c, Promise S t c cmd) {closed : cmd.Answer} :
    (conduct S).Keeps t (Free t K)
      ((call .isOpen).bind fun isOpen =>
        if isOpen then (refreshInProgressRecordingManifest false false).bind fun _ => call cmd
        else .done closed)
      (To fun _ => Free t K) := by
  have hasked : (conduct S).Keeps t (Free t K) (call cmd) (To fun _ => Free t K) :=
    keeps_idly hquiet hK.stable fun c _ => hpromise c
  have hopen : (conduct S).Keeps t (Free t K) (call .isOpen) (To fun _ => Free t K) :=
    keeps_idly trivial hK.stable fun _ _ => trivial
  refine keeps_then hopen fun isOpen => ?_
  exact keeps_ite (keeps_then (keeps_refresh hK false fun _ => rfl) fun _ => hasked)
    (keeps_done fun c hc => hc)

end Read

end RecordingClient

end DispatcharrPvr
