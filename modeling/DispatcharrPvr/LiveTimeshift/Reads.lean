import DispatcharrPvr.LiveTimeshift.Rules

/-!
# LiveTimeshift.Reads

A read, a seek and a length conduct themselves: a read finds only what is in a
segment, gives a stream up only by its signs, goes round its loops no more often
than it may, and hands back just what was handed over to it.
-/

namespace DispatcharrPvr

namespace LiveClient

open Interleaving Interleaving.Program Interleaving.Discipline LiveStream ReadLog

variable {S : Setting} {t : CallId}

/-! ## what a read knows -/

/-- Nothing has been handed over to the call, and it has handed back nothing. -/
structure Pending (t : CallId) (c : Client) : Prop where
  switching : Switching t none c
  delivered : c.deliveriesTo t = []
  answered : c.answersOf t = []

/-- The call has what it is about to hand back. -/
structure Ready (t : CallId) (result : Int) (bytes : ByteString) (c : Client) : Prop where
  switching : Switching t none c
  delivered : HandsBack (c.deliveriesTo t) result bytes
  answered : c.answersOf t = []

theorem lasting_pending : Lasting t (Pending t) := fun c c' h hsees =>
  ⟨lasting_switching none c c' h.switching hsees, hsees.delivered.trans h.delivered,
    hsees.answers.trans h.answered⟩

theorem lasting_ready {result : Int} {bytes : ByteString} :
    Lasting t (Ready t result bytes) := fun c c' h hsees =>
  ⟨lasting_switching none c c' h.switching hsees, hsees.delivered.symm ▸ h.delivered,
    hsees.answers.trans h.answered⟩

theorem Pending.ready {result : Int} {c : Client} (h : Pending t c) (hresult : result ≤ 0) :
    Ready t result [] c :=
  ⟨h.switching, .inr ⟨h.delivered, rfl, hresult⟩, h.answered⟩

/-- In its session, what was found is a part of a segment of it. -/
def Found (session : Nat) : Next → Client → Prop
  | .returns result, _ => result ≤ 0
  | .missing, _ => True
  | .fetch read, c => session ≤ c.session ∧ Chosen session read c

/-- The same; a wait has a first attempt, in a session that is open. -/
def FoundGoing (session : Nat) : Going → Client → Prop
  | .next next, c => Found session next c
  | .await wait, c => 0 < wait.attempts ∧ session ≤ c.session ∧ Placed session c

theorem lasting_placed (session : Nat) :
    Lasting t fun c => session ≤ c.session ∧ Placed session c := by
  rintro c c' ⟨hsince, hplaced⟩ hsees
  have hlater := hsees.session
  refine ⟨by omega, fun hsession => ?_⟩
  exact (hsees.placed (by omega) (hplaced (by omega))).1

theorem lasting_chosen (session : Nat) (read : SegmentRead) :
    Lasting t fun c => session ≤ c.session ∧ Chosen session read c := by
  rintro c c' ⟨hsince, hchosen⟩ hsees
  have hlater := hsees.session
  refine ⟨by omega, (lasting_placed session c c' ⟨hsince, hchosen.placed⟩ hsees).2, fun hsession => ?_,
    hchosen.offset, hchosen.fits⟩
  have hsame : c.session = session := by omega
  exact (hsees.placed (by omega) (hchosen.placed hsame)).2.subset (hchosen.tape hsame)

/-- What a section of this session finds. -/
theorem found_of_within {session : Nat} {c : Client} {s : LiveStream} {next : Next}
    (hinv : Inv S.content c) (hsession : c.session = session) (hplaced : c.record.placed = true)
    (h : Within c.stream next) : Found session next (c.put s) := by
  cases next with
  | returns result => exact h
  | missing => trivial
  | fetch read =>
      refine ⟨Nat.le_of_eq hsession.symm, fun _ => ?_, fun _ => ?_, h.2.1, h.2.2⟩
      · rw [Client.record_put_placed]
        exact hplaced
      · rw [Client.record_put_tape]
        exact hinv.suffix.subset h.1

/-! ## a failed fetch -/

/-- In its session, the failures up to this one are recorded. -/
def Counted (counted : CountedFailure) (c : Client) : Prop :=
  counted.session ≤ c.session ∧ (c.session = counted.session → ∃ then', then' <:+ c.record.signs ∧
    (streak then').length = counted.failures ∧ counted.streakStart ∈ (streak then').getLast?)

/-- In its session, the stream may be given up. -/
def Doomed (session : Nat) (c : Client) : Prop :=
  session ≤ c.session ∧ (c.session = session → Condemned c.record.signs c.clock)

theorem lasting_counted (counted : CountedFailure) : Lasting t (Counted counted) := by
  rintro c c' ⟨hsince, hcounted⟩ hsees
  have hlater := hsees.session
  refine ⟨by omega, fun hsession => ?_⟩
  obtain ⟨then', hthen, hstreak⟩ := hcounted (by omega)
  exact ⟨then', hthen.trans (hsees.signs (by omega)), hstreak⟩

theorem lasting_doomed (session : Nat) : Lasting t (Doomed session) := by
  rintro c c' ⟨hsince, hdoomed⟩ hsees
  have hlater := hsees.session
  refine ⟨by omega, fun hsession => ?_⟩
  exact (hdoomed (by omega)).mono (hsees.signs (by omega)) hsees.clock

/-- What a stream is given up by. -/
theorem doomed_of_shouldGiveUp {counted : CountedFailure} {fatal : Bool} {now : Int} {c : Client}
    (hcounted : Counted counted c) (hshown : Shown counted.session fatal c) (hnow : now ≤ c.clock)
    (h : shouldGiveUpAfterSegmentFetchFailure counted.failures fatal
      kMaxConsecutiveSegmentFetchFailures (milliseconds (now - counted.streakStart))
      kMinSegmentFetchFailureStreak = true) : Doomed counted.session c := by
  refine ⟨hcounted.1, fun hsession => ?_⟩
  simp only [shouldGiveUpAfterSegmentFetchFailure, Bool.or_eq_true, Bool.and_eq_true,
    decide_eq_true_eq] at h
  rcases h with hfatal | ⟨hmany, hlong⟩
  · exact .inl (hshown.2 hfatal hsession)
  · obtain ⟨then', hthen, hlength, hstart⟩ := hcounted.2 hsession
    have hspan := milliseconds_mono (Int.sub_le_sub_right hnow counted.streakStart)
    exact .inr (.inr (.inr ⟨then', hthen, by omega, counted.streakStart, hstart, by omega⟩))

section Failure

variable {K : Client → Prop} {clock : Int}

theorem keeps_countFailure (hK : Lasting t K) :
    (conduct S).Keeps t (Free t K) (call .countFailure)
      (To fun counted => Free t fun c => K c ∧ Counted counted c) := by
  refine keeps_ask trivial hK (fun _ _ _ => trivial) fun c choice c' a _ _ _ hinv' hexec => ?_
  obtain ⟨rfl, ha⟩ := Prod.mk.inj (Option.some.inj hexec)
  obtain rfl := Except.ok.inj ha
  refine ⟨Nat.le_refl _, fun _ => ⟨_, List.suffix_rfl, hinv'.failures.symm, ?_⟩⟩
  exact hinv'.firstFailure (Nat.succ_ne_zero _)

theorem keeps_now (hK : Lasting t K) :
    (conduct S).Keeps t (Free t K) (call .now)
      (To fun now => Free t fun c => K c ∧ now ≤ c.clock) := by
  refine keeps_ask trivial hK (fun _ _ _ => trivial) fun c choice c' a _ _ _ _ hexec => ?_
  obtain ⟨rfl, ha⟩ := Prod.mk.inj (Option.some.inj hexec)
  exact Int.le_of_eq (Except.ok.inj ha).symm

theorem keeps_nowSince (hK : Lasting t K) :
    (conduct S).Keeps t (Free t fun c => K c ∧ clock ≤ c.clock) (call .now)
      (To fun now => Free t fun c => (K c ∧ clock ≤ c.clock) ∧ clock ≤ now) := by
  refine keeps_ask trivial (hK.and (lasting_clock clock)) (fun _ _ _ => trivial)
    fun c choice c' a _ hc _ _ hexec => ?_
  obtain ⟨rfl, ha⟩ := Prod.mk.inj (Option.some.inj hexec)
  exact Except.ok.inj ha ▸ hc.2

theorem keeps_sleep (hK : Lasting t K) (ms : Int) :
    (conduct S).Keeps t (Free t fun c => K c ∧ clock ≤ c.clock) (call (.sleep ms))
      (To fun _ => Free t fun c => K c ∧ clock + ms * 1000000 ≤ c.clock) := by
  have hask : (conduct S).Keeps t (Free t _) (call (.sleep ms))
      (To fun _ => Free t fun c => _ ∧ clock + ms * 1000000 ≤ c.clock) :=
    keeps_ask trivial (hK.and (lasting_clock clock)) (fun _ _ _ => trivial)
      fun c choice c' a _ hc _ _ hexec => by
        obtain ⟨rfl, -⟩ := Prod.mk.inj (Option.some.inj hexec)
        have := hc.2
        show _ ≤ c.clock + max ms 0 * 1000000 + choice.longer
        omega
  exact hask.post (To.mono fun _ _ h => ⟨h.1, h.2.1.1, h.2.2⟩)

/-- How a failed fetch ends: with nothing, or to be tried again after a while. -/
def AfterFailure (clock : Int) : Once → Client → Prop
  | .result result bytes, _ => result ≤ 0 ∧ bytes = []
  | .retry, c => clock + 250000000 ≤ c.clock

theorem keeps_handleFailure (hK : Lasting t K) :
    (conduct S).Keeps t (Free t fun c => K c ∧ clock ≤ c.clock)
      handleLiveTimeshiftSegmentFetchFailure
      (To fun once => Free t fun c => K c ∧ AfterFailure clock once c) := by
  have hbase := hK.and (lasting_clock (t := t) clock)
  refine keeps_then (keeps_countFailure hbase) fun counted => ?_
  have hcounted := hbase.and (lasting_counted (t := t) counted)
  have hrefresh : (conduct S).Keeps t (Free t fun c => (K c ∧ clock ≤ c.clock) ∧ Counted counted c)
      (refreshLiveManifest true)
      (To fun refresh => Free t fun c => _ ∧ Shown counted.session refresh.fatal c) :=
    (keeps_refresh counted.session hcounted true).pre fun c _ hc => ⟨hc.1, hc.2, hc.2.2.1⟩
  refine keeps_then hrefresh fun refresh => ?_
  refine keeps_then (keeps_now (hcounted.and (lasting_shown counted.session refresh.fatal)))
    fun now => ?_
  split
  · next hgiveUp =>
      have hdoomed := hK.and (lasting_doomed (t := t) counted.session)
      refine Keeps.pre (P := Free t fun c => K c ∧ Doomed counted.session c) ?_ fun c _ hc =>
        ⟨hc.1, hc.2.1.1.1.1, doomed_of_shouldGiveUp hc.2.1.1.2 hc.2.1.2 hc.2.2 hgiveUp⟩
      refine keeps_then (keeps_ask (A := fun _ _ => True) trivial hdoomed (fun c _ hc => hc.2.2)
        fun _ _ _ _ _ _ _ _ _ => trivial) fun target => ?_
      refine Keeps.pre (P := Free t K) ?_ fun c _ hc => ⟨hc.1, hc.2.1.1⟩
      have hover : (conduct S).Keeps t (Free t K) (.done (Once.result 0 []))
          (To fun once => Free t fun c => K c ∧ AfterFailure clock once c) :=
        keeps_done fun c hc => ⟨hc.1, hc.2, Int.le_refl _, rfl⟩
      obtain ⟨probeUrl, probePort⟩ := target
      dsimp only
      split
      · exact hover
      · refine keeps_then (keeps_idly trivial hK fun _ => trivial) fun reachable => ?_
        split
        · exact hover
        · refine keeps_then (keeps_idly trivial hK fun _ => trivial) fun _ => ?_
          exact keeps_then (keeps_idly trivial hK fun _ => trivial) fun _ => hover
  · refine Keeps.pre (P := Free t fun c => K c ∧ clock ≤ c.clock) ?_ fun c _ hc =>
      ⟨hc.1, hc.2.1.1.1⟩
    refine keeps_then (keeps_sleep hK _) fun _ => keeps_done fun c hc => ⟨hc.1, hc.2.1, ?_⟩
    have hdelay := (segmentFetchRetryDelayMs_bounds counted.failures).1
    have hslept := hc.2.2
    show clock + 250000000 ≤ c.clock
    omega

end Failure

/-! ## a fetch -/

section Fetch

variable {clock : Int} {session : Nat} {read : SegmentRead}

/-- What the files answer is taken for what they hold. -/
theorem answered_perform {c : Client} {choice : Choice}
    (hallowed : supposed S.content c (.perform session read) choice) (hoffset : 0 ≤ read.offsetInSegment) :
    Answered S.content session read
      { transferOk := choice.transferOk
        httpCode := choice.httpCode
        serverReportedTotal := choice.serverReportedTotal
        written :=
          (FixedBufferSink.transfer { capacity := read.wantSize } choice.chunks).1.written } := by
  intro hok
  obtain ⟨htransfer, hcode, -⟩ := classifyLiveSegmentResponse_eq_ok_iff.mp hok
  obtain ⟨hpart, hwhole⟩ := hallowed htransfer
  have hwritten := FixedBufferSink.transfer_written { capacity := read.wantSize } choice.chunks
    (Nat.zero_le _)
  rw [List.nil_append] at hwritten
  dsimp only
  rw [hwritten]
  refine ⟨List.length_take_le _ _, (List.take_prefix _ _).trans ?_⟩
  rcases hcode with hcode | ⟨hcode, hstart⟩
  · exact hpart hcode
  · -- a server that ignores a range from the start answers with the same bytes
    have hzero : read.offsetInSegment.toNat = 0 := by omega
    rw [hzero, List.drop_zero]
    exact hwhole hcode

/-- What a fetch comes to. -/
def AfterFetch (t : CallId) (clock : Int) : Fetched → Client → Prop
  | .delivered bytes, c => Ready t bytes.length bytes c
  | .returns result, c => Pending t c ∧ result ≤ 0
  | .failed, c => Pending t c ∧ clock ≤ c.clock

theorem lasting_afterFetch (fetched : Fetched) : Lasting t (AfterFetch t clock fetched) := by
  cases fetched with
  | delivered bytes => exact lasting_ready
  | returns result => exact lasting_pending.and (lasting_given _)
  | failed => exact lasting_pending.and (lasting_clock clock)

/-- A section that hands nothing over is seen by its own call as by the others. -/
theorem sees_put {c : Client} {s : LiveStream} (hopen : s.isOpen = c.stream.isOpen) :
    Sees t c (c.put s) :=
  (Rely.put s fun _ _ => hopen).toSees

theorem keeps_endFetch {answer : FetchAnswer} :
    (conduct S).Keeps t
      (Knows t true false fun c => ((Pending t c ∧ clock ≤ c.clock) ∧
        session ≤ c.session ∧ Chosen session read c) ∧ Answered S.content session read answer)
      (call (.endFetch session read answer))
      (To fun fetched => Knows t true false (AfterFetch t clock fetched)) := by
  have hbase := (lasting_pending (t := t)).and (lasting_clock clock)
  have hlasting := (hbase.and (lasting_chosen session read)).and
    (lasting_given (Answered S.content session read answer))
  refine keeps_call hlasting.stable (fun c _ hc => ⟨hc.2.1.2.2, hc.2.2⟩)
    fun c choice c' a hinv hc _ _ hexec => ?_
  obtain ⟨hholds, ⟨⟨hpending, hclock⟩, -, hchosen⟩, -⟩ := hc
  have hstays : ∀ {s : LiveStream}, s.isOpen = c.stream.isOpen →
      Pending t (c.put s) ∧ clock ≤ (c.put s).clock :=
    fun hopen => hbase _ _ ⟨hpending, hclock⟩ (sees_put hopen)
  simp only [Client.exec] at hexec
  have hcases := endFetch_cases (s := c.stream)
    (c.stillSameStream session && decide (c.stream.position = read.position)) read answer
  rcases hcases with ⟨-, -, heq⟩ | ⟨hok, heq⟩ | ⟨houtcome, heq⟩ | ⟨s', hkept, heq⟩
  · rw [heq] at hexec
    obtain ⟨rfl, ha⟩ := Prod.mk.inj (Option.some.inj hexec)
    obtain rfl := Except.ok.inj ha
    refine ⟨⟨hholds.curl, hholds.refresh⟩, hpending.switching, .inl ⟨?_, rfl⟩, hpending.answered⟩
    show _ ++ (c.record.move _).deliveriesTo t = _
    rw [Record.deliveriesTo_move_deliver, if_pos rfl, ← List.append_assoc]
    exact congrArg (· ++ [answer.written]) hpending.delivered
  · rw [heq] at hexec
    simp only [hok, if_true, Client.put_self] at hexec
    obtain ⟨rfl, ha⟩ := Prod.mk.inj (Option.some.inj hexec)
    obtain rfl := Except.ok.inj ha
    exact ⟨hholds, hpending, by decide⟩
  · rw [heq] at hexec
    have hnot : classifyLiveSegmentResponse answer.transferOk answer.httpCode
        read.offsetInSegment answer.serverReportedTotal read.segment.byteSize ≠ .ok := by
      rcases houtcome with houtcome | houtcome <;> simp [houtcome]
    simp only [if_neg hnot] at hexec
    obtain ⟨rfl, ha⟩ := Prod.mk.inj (Option.some.inj hexec)
    obtain rfl := Except.ok.inj ha
    have hput : Sees t c (c.put { c.stream with fatal := true }) := sees_put rfl
    exact ⟨⟨hholds.curl, hholds.refresh⟩, lasting_pending _ _ hpending (hput.trans (Rely.sign _).toSees),
      Int.le_refl _⟩
  · rw [heq] at hexec
    obtain ⟨rfl, ha⟩ := Prod.mk.inj (Option.some.inj hexec)
    obtain rfl := Except.ok.inj ha
    exact ⟨⟨hholds.curl, hholds.refresh⟩, hstays hkept.isOpen⟩

/-- How a try of a read ends: with what it hands back, or to be tried again after a
while. -/
def AfterTry (t : CallId) (clock : Int) : Once → Client → Prop
  | .result result bytes, c => Ready t result bytes c
  | .retry, c => Pending t c ∧ clock + 250000000 ≤ c.clock

theorem keeps_failedTry :
    (conduct S).Keeps t (Free t fun c => Pending t c ∧ clock ≤ c.clock)
      handleLiveTimeshiftSegmentFetchFailure (To fun once => Free t (AfterTry t clock once)) :=
  (keeps_handleFailure lasting_pending).post (To.mono fun once c hc => by
    obtain ⟨hholds, hpending, hafter⟩ := hc
    cases once with
    | result result bytes =>
        obtain ⟨hresult, rfl⟩ := hafter
        exact ⟨hholds, hpending.ready hresult⟩
    | retry => exact ⟨hholds, hpending, hafter⟩)

/-- **A fetch** holds the handle only while it lasts, and hands over just the part
of the segment that was chosen. -/
theorem keeps_fetchSegment (hoffset : 0 ≤ read.offsetInSegment) :
    (conduct S).Keeps t
      (Free t fun c => (Pending t c ∧ clock ≤ c.clock) ∧ session ≤ c.session ∧ Chosen session read c)
      (fetchSegment session read) (To fun once => Free t (AfterTry t clock once)) := by
  have hbase := ((lasting_pending (t := t)).and (lasting_clock clock)).and
    (lasting_chosen session read)
  refine keeps_then (keeps_lockCurl hbase) fun _ => ?_
  refine keeps_then (keeps_ask (A := fun _ _ => True) trivial hbase (fun _ _ _ => trivial)
    fun _ _ _ _ _ _ _ _ _ => trivial) fun begun => ?_
  refine Keeps.pre (P := Knows t true false _) ?_ fun c _ hc => ⟨hc.1, hc.2.1⟩
  split
  · have hperform : (conduct S).Keeps t (Knows t true false _) (call (.perform session read))
        (To fun answer => Knows t true false fun c => _ ∧ Answered S.content session read answer) :=
      keeps_ask trivial hbase (fun _ _ _ => trivial) fun c choice c' a _ _ hallowed _ hexec => by
        obtain ⟨rfl, ha⟩ := Prod.mk.inj (Option.some.inj hexec)
        obtain rfl := Except.ok.inj ha
        exact answered_perform hallowed hoffset
    refine keeps_then hperform fun answer => keeps_then keeps_endFetch fun fetched => ?_
    refine keeps_then (keeps_unlockCurl (lasting_afterFetch fetched)) fun _ => ?_
    cases fetched with
    | delivered bytes => exact keeps_done fun c hc => hc
    | returns result => exact keeps_done fun c hc => ⟨hc.1, hc.2.1.ready hc.2.2⟩
    | failed => exact keeps_failedTry
  · exact keeps_then (keeps_unlockCurl hbase) fun _ =>
      keeps_done fun c hc => ⟨hc.1, hc.2.1.1.ready (by decide)⟩

end Fetch

/-! ## a try -/

section Try

variable {K : Client → Prop} {clock : Int} {session size : Nat} {wait : TailWait}

/-- A section entered in its session, or answered from elsewhere. -/
theorem within_found {c c' : Client} {α : Type} {elsewhere a : α}
    {f : LiveStream → LiveStream × α} {Q : α → Client → Prop}
    (h : c.within session elsewhere f = (c', a)) (helsewhere : Q elsewhere c)
    (hthere : c.session = session → Q (f c.stream).2 (c.put (f c.stream).1)) : Q a c' := by
  unfold Client.within at h
  split at h
  · next hsame =>
      obtain ⟨rfl, rfl⟩ := Prod.mk.inj h
      simp only [Client.stillSameStream, Bool.and_eq_true, beq_iff_eq] at hsame
      exact hthere hsame.2
  · obtain ⟨rfl, rfl⟩ := Prod.mk.inj h
    exact helsewhere

theorem foundGoing_goOn {c : Client} {s : LiveStream} {now : Int} (hinv : Inv S.content c)
    (hsession : c.session = session) (hplaced : c.record.placed = true) :
    FoundGoing session (c.stream.goOn now size).2 (c.put s) := by
  have hwithin : WithinGoing c.stream (c.stream.goOn now size).2 := within_goOn
  generalize (c.stream.goOn now size).2 = going at hwithin
  cases going with
  | next next => exact found_of_within hinv hsession hplaced hwithin
  | await wait =>
      refine ⟨hwithin, Nat.le_of_eq hsession.symm, fun _ => ?_⟩
      rw [Client.record_put_placed]
      exact hplaced

theorem keeps_resume (hK : Lasting t K) :
    (conduct S).Keeps t (Free t fun c => K c ∧ session ≤ c.session ∧ Placed session c)
      (call (.resume session size))
      (To fun going => Free t fun c => K c ∧ FoundGoing session going c) := by
  have hask : (conduct S).Keeps t (Free t _) (call (.resume session size))
      (To fun going => Free t fun c => _ ∧ FoundGoing session going c) :=
    keeps_ask trivial (hK.and (lasting_placed session)) (fun _ _ _ => trivial)
      fun c choice c' going hinv hc _ _ hexec => by
        have hwithin : c.within session (.next (.returns (-1))) (fun s => s.goOn c.clock size) =
            (c', going) := by simpa [Client.exec, Prod.ext_iff] using hexec
        refine within_found (Q := FoundGoing session) hwithin ?_ fun hsession =>
          foundGoing_goOn hinv hsession (hc.2.2 hsession)
        show (-1 : Int) ≤ 0
        decide
  exact hask.post (To.mono fun _ _ h => ⟨h.1, h.2.1.1, h.2.2⟩)

/-- What an attempt of a wait finds. -/
def FoundAttempt (session : Nat) (wait : TailWait) (attempt : Nat) : Attempt → Client → Prop
  | .leave next, c => Found session next c
  | .sleep _, c => (attempt : Int) + 1 < wait.attempts ∧ session ≤ c.session ∧ Placed session c

theorem keeps_afterRefresh (hK : Lasting t K) {attempt : Nat} {answered refreshFatal : Bool} :
    (conduct S).Keeps t
      (Free t fun c => (K c ∧ session ≤ c.session ∧ Placed session c) ∧
        Shown session refreshFatal c)
      (call (.afterRefresh session size wait attempt answered refreshFatal))
      (To fun a => Free t fun c => K c ∧ FoundAttempt session wait attempt a c) := by
  have hask : (conduct S).Keeps t (Free t _)
      (call (.afterRefresh session size wait attempt answered refreshFatal))
      (To fun a => Free t fun c => _ ∧ FoundAttempt session wait attempt a c) :=
    keeps_ask trivial ((hK.and (lasting_placed session)).and (lasting_shown session refreshFatal))
      (fun _ _ hc => hc.2.2) fun c choice c' a hinv hc _ _ hexec => by
        have hsection : c.within session (.leave (.returns (-1))) (fun s =>
            s.afterRefresh c.clock size wait attempt answered refreshFatal) = (c', a) := by
          simpa [Client.exec, Prod.ext_iff] using hexec
        refine within_found (Q := FoundAttempt session wait attempt) hsection ?_ fun hsession => ?_
        · show (-1 : Int) ≤ 0
          decide
        · have hplaced := hc.1.2.2 hsession
          have hwithin : WithinAttempt c.stream wait attempt
              (c.stream.afterRefresh c.clock size wait attempt answered refreshFatal).2 :=
            within_afterRefresh
          generalize (c.stream.afterRefresh c.clock size wait attempt answered refreshFatal) =
            after at hwithin
          obtain ⟨s, a⟩ := after
          cases a with
          | leave next => exact found_of_within hinv hsession hplaced hwithin
          | sleep ms =>
              refine ⟨hwithin, Nat.le_of_eq hsession.symm, fun _ => ?_⟩
              rw [Client.record_put_placed]
              exact hplaced
  exact hask.post (To.mono fun _ _ h => ⟨h.1, h.2.1.1.1, h.2.2⟩)

/-- What is found after a sleep; nothing when the next attempt follows. -/
def FoundNext (session : Nat) : Option Next → Client → Prop
  | none, c => session ≤ c.session ∧ Placed session c
  | some next, c => Found session next c

theorem keeps_afterSleep (hK : Lasting t K) {answered : Bool} :
    (conduct S).Keeps t (Free t fun c => K c ∧ session ≤ c.session ∧ Placed session c)
      (call (.afterSleep session size wait answered))
      (To fun a => Free t fun c => K c ∧ FoundNext session a c) := by
  have hask : (conduct S).Keeps t (Free t _) (call (.afterSleep session size wait answered))
      (To fun a => Free t fun c => _ ∧ FoundNext session a c) :=
    keeps_ask trivial (hK.and (lasting_placed session)) (fun _ _ _ => trivial)
      fun c choice c' a hinv hc _ _ hexec => by
        have hsection : c.within session (some (.returns (-1))) (fun s =>
            s.afterSleep c.clock size wait answered) = (c', a) := by
          simpa [Client.exec, Prod.ext_iff] using hexec
        refine within_found (Q := FoundNext session) hsection ?_ fun hsession => ?_
        · show (-1 : Int) ≤ 0
          decide
        · have hplaced := hc.2.2 hsession
          have hwithin : WithinNext c.stream (c.stream.afterSleep c.clock size wait answered).2 :=
            within_afterSleep answered
          generalize (c.stream.afterSleep c.clock size wait answered) = after at hwithin
          obtain ⟨s, a⟩ := after
          cases a with
          | none =>
              refine ⟨Nat.le_of_eq hsession.symm, fun _ => ?_⟩
              rw [Client.record_put_placed]
              exact hplaced
          | some next => exact found_of_within hinv hsession hplaced hwithin
  exact hask.post (To.mono fun _ _ h => ⟨h.1, h.2.1.1, h.2.2⟩)

/-- **A wait at the tail** ends within its attempts, and lets go of the stream only
for what is there. -/
theorem keeps_waitAtTail (hK : Lasting t K) (left attempt : Nat) (hleft : 0 < left)
    (hattempts : (attempt : Int) + left = wait.attempts) :
    (conduct S).Keeps t (Free t fun c => K c ∧ session ≤ c.session ∧ Placed session c)
      (waitAtTail session size wait left attempt)
      (To fun next => Free t fun c => K c ∧ Found session next c) := by
  induction left generalizing attempt with
  | zero => contradiction
  | succ left ih =>
      have hplaced := hK.and (lasting_placed (t := t) session)
      have hrefresh : (conduct S).Keeps t
          (Free t fun c => K c ∧ session ≤ c.session ∧ Placed session c) (refreshLiveManifest true)
          (To fun refresh => Free t fun c => _ ∧ Shown session refresh.fatal c) :=
        (keeps_refresh session hplaced true).pre fun c _ hc => ⟨hc.1, hc.2, hc.2.2.1⟩
      refine keeps_then hrefresh fun refresh => ?_
      refine keeps_then (keeps_afterRefresh hK) fun after => ?_
      cases after with
      | leave next => exact keeps_done fun c hc => hc
      | sleep ms =>
          intro c hinv hc
          -- the last attempt is not followed by a sleep
          have hmore : (attempt : Int) + 1 < wait.attempts := hc.2.2.1
          have hsleep : (conduct S).Keeps t (Free t _) (call (.sleep ms)) (To fun _ => Free t _) :=
            keeps_idly trivial hplaced fun _ => trivial
          refine keeps_then hsleep (fun _ => ?_) c hinv ⟨hc.1, hc.2.1, hc.2.2.2⟩
          refine keeps_then (keeps_afterSleep hK) fun found => ?_
          cases found with
          | some next => exact keeps_done fun c hc => hc
          | none => exact ih (attempt + 1) (by omega) (by omega)

theorem keeps_follow (next : Next) :
    (conduct S).Keeps t (Free t fun c => (Pending t c ∧ clock ≤ c.clock) ∧ Found session next c)
      (follow session next) (To fun once => Free t (AfterTry t clock once)) := by
  cases next with
  | returns result => exact keeps_done fun c hc => ⟨hc.1, hc.2.1.1.ready hc.2.2⟩
  | missing => exact keeps_failedTry.pre fun c _ hc => ⟨hc.1, hc.2.1⟩
  | fetch read =>
      exact fun c hinv hc => keeps_fetchSegment hc.2.2.2.offset c hinv hc

theorem keeps_readOn (going : Going) :
    (conduct S).Keeps t
      (Free t fun c => (Pending t c ∧ clock ≤ c.clock) ∧ FoundGoing session going c)
      (readOn session size going) (To fun once => Free t (AfterTry t clock once)) := by
  cases going with
  | next next => exact keeps_follow next
  | await wait =>
      intro c hinv hc
      have hattempts : 0 < wait.attempts := hc.2.2.1
      have hwait : (conduct S).Keeps t (Free t _)
          (waitAtTail session size wait wait.attempts.toNat 0) (To fun next => Free t _) :=
        keeps_waitAtTail ((lasting_pending (t := t)).and (lasting_clock clock)) _ 0 (by omega)
          (by omega)
      exact keeps_then hwait (fun next => keeps_follow next) c hinv ⟨hc.1, hc.2.1, hc.2.2.2⟩

/-- What a read finds on its arrival. -/
def FoundArrival (session : Nat) : Arrival → Client → Prop
  | .going going, c => FoundGoing session going c
  | .heartbeat .., c => session ≤ c.session ∧ Placed session c

/-- A stream that is read is one whose open is through. -/
theorem keeps_arrive (hK : Lasting t K) :
    (conduct S).Keeps t (Free t K) (call (.arrive size))
      (To fun a => Free t fun c => K c ∧ FoundArrival a.1 a.2 c) := by
  refine keeps_ask trivial hK (fun _ _ _ => trivial) fun c choice c' a hinv _ hallowed _ hexec => ?_
  have hsection : c.put (c.stream.arrive c.clock size).1 = c' ∧
      (c.session, (c.stream.arrive c.clock size).2) = a := by
    simpa [Client.exec] using hexec
  obtain ⟨rfl, rfl⟩ := hsection
  have hwithin : ∀ going, (c.stream.arrive c.clock size).2 = .going going →
      WithinGoing c.stream going := fun going => within_arrive
  have hplaced : c.stream.isOpen = true → c.record.placed = true := fun hopen => by
    rcases hinv.placed hopen with hplaced | ⟨t', ht'⟩
    · exact hplaced
    · cases hallowed (t', true) ht'
  have hclosed : c.stream.isOpen = false →
      (c.stream.arrive c.clock size).2 = .going (.next (.returns 0)) := fun hclosed => by
    simp [arrive, hclosed]
  generalize (c.stream.arrive c.clock size) = arrived at hwithin hclosed
  obtain ⟨s, arrival⟩ := arrived
  cases hopen : c.stream.isOpen with
  | false =>
      obtain rfl : arrival = .going (.next (.returns 0)) := hclosed hopen
      exact Int.le_refl 0
  | true =>
      have hputPlaced : Placed c.session (c.put s) := fun _ => by
        rw [Client.record_put_placed]
        exact hplaced hopen
      cases arrival with
      | heartbeat channelUuid viewerId accessToken => exact ⟨Nat.le_refl _, hputPlaced⟩
      | going going =>
          have hgoing := hwithin going rfl
          cases going with
          | next next => exact found_of_within hinv rfl (hplaced hopen) hgoing
          | await wait => exact ⟨hgoing, Nat.le_refl _, hputPlaced⟩

/-- **A try** of a read. -/
theorem keeps_readOnce :
    (conduct S).Keeps t (Free t fun c => Pending t c ∧ clock ≤ c.clock)
      (readLiveTimeshiftStreamOnce size) (To fun once => Free t (AfterTry t clock once)) := by
  have hbase := (lasting_pending (t := t)).and (lasting_clock clock)
  refine keeps_then (keeps_arrive hbase) fun arrived => ?_
  obtain ⟨session, arrival⟩ := arrived
  cases arrival with
  | going going => exact keeps_readOn going
  | heartbeat channelUuid viewerId accessToken =>
      have hbeat : (conduct S).Keeps t (Free t _)
          (call (.heartbeat channelUuid viewerId accessToken)) (To fun _ => Free t _) :=
        keeps_idly trivial (hbase.and (lasting_placed session)) fun _ => trivial
      exact keeps_then hbeat fun _ => keeps_then (keeps_resume hbase) fun going =>
        keeps_readOn going

end Try

/-! ## the calls -/

section Calls

variable {K : Client → Prop}

theorem keeps_notifyFatalOnce (hK : Lasting t K) :
    (conduct S).Keeps t (Free t K) notifyLiveStreamFatalOnce (To fun _ => Free t K) := by
  have hdue : (conduct S).Keeps t (Free t K) (call .fatalNotice) (To fun _ => Free t K) :=
    keeps_idly trivial hK fun _ => trivial
  refine keeps_then hdue fun due => ?_
  split
  · exact keeps_idly trivial hK fun _ => trivial
  · exact keeps_done fun c hc => hc

/-- **The loop of a read**: each time round takes a quarter of a second or more, so
that the fourth is the last. -/
theorem keeps_readLoop (size : Nat) (start : Int) (left : Nat) (hleft : 0 < left ∧ left ≤ 4) :
    (conduct S).Keeps t
      (Free t fun c => Pending t c ∧ start + (4 - left) * 250000000 ≤ c.clock)
      (readLoop size start left)
      (To fun answer => Free t (Ready t answer.1 answer.2)) := by
  induction left with
  | zero => omega
  | succ left ih =>
      refine keeps_then keeps_readOnce fun once => ?_
      cases once with
      | result result bytes =>
          have hready : Lasting t (Ready t result bytes) := lasting_ready
          have hend : (conduct S).Keeps t (Free t (Ready t result bytes)) (.done (result, bytes))
              (To fun answer => Free t (Ready t answer.1 answer.2)) := keeps_done fun c hc => hc
          dsimp only
          split
          · exact keeps_then (keeps_notifyFatalOnce hready) fun _ => hend
          · exact hend
      | retry =>
          have hbase := (lasting_pending (t := t)).and
            (lasting_clock (start + (4 - (left + 1 : Nat)) * 250000000 + 250000000))
          refine keeps_then (keeps_nowSince lasting_pending) fun now => ?_
          have haborting : (conduct S).Keeps t (Free t _) (call .isAborting)
              (To fun _ => Free t _) :=
            keeps_idly trivial (hbase.and (lasting_given
              (start + (4 - (left + 1 : Nat)) * 250000000 + 250000000 ≤ now))) fun _ => trivial
          refine keeps_then haborting fun aborted c hinv hc => ?_
          obtain ⟨hholds, ⟨hpending, hclock⟩, hlater⟩ := hc
          split
          · next hagain =>
              have hspan : milliseconds (now - start) < 1000 := lt_of_tryAgain hagain
              -- a fourth retry would be past the slice
              have hleft' : 0 < left ∧ left ≤ 4 := by
                refine ⟨Nat.pos_of_ne_zero fun hnone => ?_, by omega⟩
                subst hnone
                have hlong : milliseconds 1000000000 ≤ milliseconds (now - start) :=
                  milliseconds_mono (by omega)
                exact absurd hlong (by simpa [milliseconds] using hspan)
              exact ih hleft' c hinv ⟨hholds, hpending, by omega⟩
          · exact ⟨hholds, hpending.ready (by decide)⟩
          · exact ⟨hholds, hpending.ready (Int.le_refl _)⟩

/-- **A read** hands back just what was handed over to it, or nothing. -/
theorem keeps_readLiveTimeshiftStream (size : Nat) :
    (conduct S).Keeps t (Free t (Pending t)) (readLiveTimeshiftStream size)
      (To fun answer => Free t (Ready t answer.1 answer.2)) := by
  have hnow : (conduct S).Keeps t (Free t (Pending t)) (call .now)
      (To fun (start : Int) => Free t fun c =>
        Pending t c ∧ start + (4 - (4 : Nat)) * 250000000 ≤ c.clock) :=
    (keeps_now lasting_pending).post (To.mono fun (start : Int) c hc => by
      have hnow : start ≤ c.clock := hc.2.2
      exact ⟨hc.1, hc.2.1, by omega⟩)
  exact keeps_then hnow fun start => keeps_readLoop size start 4 (by decide)

/-- **A seek**. -/
theorem keeps_seek (hK : Lasting t K) (position whence : Int) :
    (conduct S).Keeps t (Free t K) (seekLiveTimeshiftStream position whence)
      (To fun _ => Free t K) := by
  have hseek : (conduct S).Keeps t (Free t K) (call (.seek position whence))
      (To fun _ => Free t K) := keeps_idly trivial hK fun _ => trivial
  have hbegin : (conduct S).Keeps t (Free t K) (call .beginSeek) (To fun _ => Free t K) :=
    keeps_idly trivial hK fun _ => trivial
  refine keeps_then hbegin fun begun => ?_
  split
  · split
    · refine keeps_then ((keeps_refresh 0 hK true).weaken (fun c _ hc => ⟨hc.1, hc.2, Nat.zero_le _⟩)
        (To.mono fun _ _ h => ⟨h.1, h.2.1⟩)) fun _ => hseek
    · exact hseek
  · exact keeps_done fun c hc => hc

/-- **A length**: the manifest's end of the stream is told of the session it was
asked in. -/
theorem keeps_length (hK : Lasting t K) :
    (conduct S).Keeps t (Free t K) getLiveTimeshiftStreamLength (To fun _ => Free t K) := by
  have hbegin : (conduct S).Keeps t (Free t K) (call .beginLength) (To fun _ => Free t K) :=
    keeps_idly trivial hK fun _ => trivial
  have htotal : (conduct S).Keeps t (Free t K) (call .totalBytes) (To fun _ => Free t K) :=
    keeps_idly trivial hK fun _ => trivial
  refine keeps_then hbegin fun length => ?_
  cases length with
  | some length => exact keeps_done fun c hc => hc
  | none =>
      have hsession : (conduct S).Keeps t (Free t K) (call .currentSession)
          (To fun session => Free t fun c => K c ∧ session ≤ c.session) :=
        keeps_ask trivial hK (fun _ _ _ => trivial) fun c choice c' a _ _ _ _ hexec => by
          obtain ⟨rfl, ha⟩ := Prod.mk.inj (Option.some.inj hexec)
          exact Nat.le_of_eq (Except.ok.inj ha).symm
      have hpoll : (conduct S).Keeps t (Free t K) pollLiveManifest (To fun _ => Free t K) := by
        refine keeps_then hsession fun session => keeps_then (keeps_refresh session hK false)
          fun refresh => ?_
        split
        · next hfatal =>
            have htell : (conduct S).Keeps t (Free t _) (call (.polledFatal session))
                (To fun _ => Free t fun c => _ ∧ True) :=
              keeps_ask trivial (hK.and (lasting_shown session refresh.fatal))
                (fun c _ hc => hc.2.2 hfatal) fun _ _ _ _ _ _ _ _ _ => trivial
            exact htell.post (To.mono fun _ _ h => ⟨h.1, h.2.1.1⟩)
        · exact keeps_done fun c hc => ⟨hc.1, hc.2.1⟩
      exact keeps_then hpoll fun _ => htotal

end Calls

end LiveClient

end DispatcharrPvr
