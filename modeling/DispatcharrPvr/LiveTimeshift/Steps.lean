import DispatcharrPvr.LiveTimeshift.Conduct

/-!
# LiveTimeshift.Steps

What one step of a call does to a client (`exec_effect`), and that it keeps the
invariant and what the other calls rely on.
-/

namespace DispatcharrPvr

namespace LiveClient

open Interleaving LiveStream ReadLog Layout

/-! ## the sections of a read -/

/-- What a section leaves of a stream; it may find it dead only by `cause`. -/
structure Kept (cause : Prop) (s s' : LiveStream) : Prop where
  space : s'.toLiveTimeshiftStreamState = s.toLiveTimeshiftStreamState
  isOpen : s'.isOpen = s.isOpen
  failures : s'.consecutiveSegmentFetchFailures = s.consecutiveSegmentFetchFailures
  firstFailure : s'.firstSegmentFetchFailureAt = s.firstSegmentFetchFailureAt
  fatal : s'.fatal = true → s.fatal = true ∨ cause

section Kept

variable {cause : Prop} {s s' s'' : LiveStream} {now : Int} {size : Nat} {wait : TailWait}

theorem Kept.refl (s : LiveStream) : Kept cause s s := ⟨rfl, rfl, rfl, rfl, .inl⟩

theorem Kept.trans (h : Kept cause s s') (h' : Kept cause s' s'') : Kept cause s s'' where
  space := h'.space.trans h.space
  isOpen := h'.isOpen.trans h.isOpen
  failures := h'.failures.trans h.failures
  firstFailure := h'.firstFailure.trans h.firstFailure
  fatal hfatal := (h'.fatal hfatal).elim h.fatal .inr

theorem kept_leaveTail (answered : Bool) : Kept cause s (s.leaveTail now size wait answered).1 := by
  unfold leaveTail
  dsimp only
  split
  · exact .refl s
  split
  · exact .refl s
  split <;> exact ⟨rfl, rfl, rfl, rfl, .inl⟩

theorem kept_goOn : Kept cause s (s.goOn now size).1 := by
  unfold goOn
  split
  · exact ⟨rfl, rfl, rfl, rfl, .inl⟩
  split
  · exact ⟨rfl, rfl, rfl, rfl, .inl⟩
  · exact .refl s

theorem kept_continueFromOldest : Kept cause s s.continueFromOldest := by
  unfold continueFromOldest
  split <;> exact ⟨rfl, rfl, rfl, rfl, .inl⟩

theorem kept_arrive : Kept cause s (s.arrive now size).1 := by
  unfold arrive
  split
  · exact .refl s
  split
  · exact .refl s
  · refine kept_continueFromOldest.trans ?_
    dsimp only
    split
    · exact ⟨rfl, rfl, rfl, rfl, .inl⟩
    · exact kept_goOn

theorem kept_afterRefresh {attempt : Nat} {answered refreshFatal : Bool} :
    Kept (refreshFatal = true) s (s.afterRefresh now size wait attempt answered refreshFatal).1 := by
  have hfatal : Kept (refreshFatal = true) s { s with fatal := s.fatal || refreshFatal } :=
    ⟨rfl, rfl, rfl, rfl, by simp⟩
  unfold afterRefresh
  dsimp only
  split
  · exact hfatal.trans (kept_leaveTail answered)
  · exact hfatal

theorem kept_afterSleep (answered : Bool) : Kept cause s (s.afterSleep now size wait answered).1 := by
  unfold afterSleep
  split
  · exact .refl s
  · exact kept_leaveTail answered

theorem kept_beginRefresh {session : Nat} {force : Bool} :
    Kept cause s (s.beginRefresh now session force).1 := by
  unfold beginRefresh
  split
  · exact .refl s
  split
  · exact .refl s
  · exact ⟨rfl, rfl, rfl, rfl, .inl⟩

end Kept

/-! ## what they find -/

/-- What is found of a segment is inside it. -/
def Within (s : LiveStream) : Next → Prop
  | .returns result => result ≤ 0
  | .missing => True
  | .fetch read => read.segment ∈ s.segments ∧ 0 ≤ read.offsetInSegment ∧
      read.offsetInSegment + read.wantSize ≤ read.segment.byteSize

/-- The same, and a wait has a first attempt. -/
def WithinGoing (s : LiveStream) : Going → Prop
  | .next next => Within s next
  | .await wait => 0 < wait.attempts

/-- What is found after an attempt; it is not the last one where a sleep follows. -/
def WithinAttempt (s : LiveStream) (wait : TailWait) (attempt : Nat) : Attempt → Prop
  | .leave next => Within s next
  | .sleep _ => (attempt : Int) + 1 < wait.attempts

/-- What is found after a sleep, where the wait is over. -/
def WithinNext (s : LiveStream) : Option Next → Prop
  | none => True
  | some next => Within s next

section Within

variable {s : LiveStream} {now : Int} {size : Nat} {wait : TailWait}

theorem within_choose (gaveUp : Bool) : Within s (s.choose size gaveUp) := by
  unfold choose
  split
  · show liveTailGiveUpResult gaveUp ≤ 0
    cases gaveUp <;> decide
  · split
    · trivial
    · next seg hfind =>
        split
        · exact Int.le_refl _
        · next wantSize hwant =>
            unfold segmentReadSize at hwant
            split at hwant
            · next hin =>
                obtain rfl := Option.some.inj hwant
                refine ⟨List.mem_of_find?_eq_some hfind, hin.1, ?_⟩
                show s.position - seg.byteOffset + ((min (size : Int)
                  (seg.byteSize - (s.position - seg.byteOffset))).toNat : Int) ≤ seg.byteSize
                omega
            · contradiction

theorem within_leaveTail (answered : Bool) : Within s (s.leaveTail now size wait answered).2 := by
  unfold leaveTail
  dsimp only
  split
  · exact Int.le_refl _
  split
  · exact Int.le_refl _
  split
  · show (-1 : Int) ≤ 0
    decide
  · exact within_choose _

theorem within_goOn : WithinGoing s (s.goOn now size).2 := by
  unfold goOn
  split
  · exact Int.le_refl _
  split
  · exact computeCatchUpAttempts_pos _ _ _
  · exact within_choose _

theorem within_afterRefresh {attempt : Nat} {answered refreshFatal : Bool} :
    WithinAttempt s wait attempt
      (s.afterRefresh now size wait attempt answered refreshFatal).2 := by
  unfold afterRefresh
  dsimp only
  split
  · exact within_leaveTail answered
  · next hgo =>
      simp only [Bool.or_eq_true, not_or, decide_eq_true_eq] at hgo
      show (attempt : Int) + 1 < wait.attempts
      omega

theorem within_afterSleep (answered : Bool) :
    WithinNext s (s.afterSleep now size wait answered).2 := by
  unfold afterSleep
  split
  · trivial
  · exact within_leaveTail answered

theorem within_arrive {going : Going} (h : (s.arrive now size).2 = .going going) :
    WithinGoing s going := by
  unfold arrive at h
  split at h
  · obtain rfl : Going.next (.returns 0) = going := by simpa using h
    exact Int.le_refl _
  split at h
  · obtain rfl : Going.next (.returns 0) = going := by simpa using h
    exact Int.le_refl _
  · have hkept : Kept True s s.continueFromOldest := kept_continueFromOldest
    have hspace : s.continueFromOldest.segments = s.segments := by rw [hkept.space]
    dsimp only at h
    split at h
    · contradiction
    · obtain rfl : (s.continueFromOldest.goOn now size).2 = going := by simpa using h
      have hgoing : WithinGoing s.continueFromOldest (s.continueFromOldest.goOn now size).2 :=
        within_goOn
      generalize (s.continueFromOldest.goOn now size).2 = going at hgoing
      cases going with
      | await wait => exact hgoing
      | next next =>
          cases next with
          | returns result => exact hgoing
          | missing => trivial
          | fetch read => exact ⟨hspace ▸ hgoing.1, hgoing.2⟩

/-- A refresh is for the session it is begun in. -/
theorem beginRefresh_session {session : Nat} {force : Bool} {asked : Asked}
    (h : (s.beginRefresh now session force).2 = some (some asked)) : asked.session = session := by
  unfold beginRefresh at h
  split at h
  · cases h
  split at h
  · cases h
  · exact (congrArg Asked.session (Option.some.inj (Option.some.inj h))).symm

/-- What a fetch leaves: a delivery where the stream was, what its answer shows, or
nothing. -/
theorem endFetch_cases (stillThere : Bool) (read : SegmentRead) (answer : FetchAnswer) :
    let outcome := classifyLiveSegmentResponse answer.transferOk answer.httpCode
      read.offsetInSegment answer.serverReportedTotal read.segment.byteSize
    (outcome = .ok ∧ stillThere = true ∧
      s.endFetch stillThere read answer =
        ({ s with
            consecutiveSegmentFetchFailures := 0
            firstSegmentFetchFailureAt := 0
            position := s.position + answer.written.length }, .delivered answer.written)) ∨
    (outcome = .ok ∧ s.endFetch stillThere read answer = (s, .returns (-1))) ∨
    ((outcome = .rangeIgnored ∨ outcome = .sizeMismatch) ∧
      s.endFetch stillThere read answer = ({ s with fatal := true }, .returns 0)) ∨
    (∃ s', Kept False s s' ∧ s.endFetch stillThere read answer = (s', .failed)) := by
  intro outcome
  have houtcome : classifyLiveSegmentResponse answer.transferOk answer.httpCode
      read.offsetInSegment answer.serverReportedTotal read.segment.byteSize = outcome := rfl
  unfold endFetch
  rw [houtcome]
  cases outcome with
  | transportFailure => exact .inr (.inr (.inr ⟨{ s with curl := false }, ⟨rfl, rfl, rfl, rfl, .inl⟩, rfl⟩))
  | segmentGone => exact .inr (.inr (.inr ⟨_, .refl s, rfl⟩))
  | unexpectedStatus => exact .inr (.inr (.inr ⟨_, .refl s, rfl⟩))
  | rangeIgnored => exact .inr (.inr (.inl ⟨.inl rfl, rfl⟩))
  | sizeMismatch => exact .inr (.inr (.inl ⟨.inr rfl, rfl⟩))
  | ok =>
      cases stillThere with
      | true => exact .inl ⟨rfl, rfl, rfl⟩
      | false => exact .inr (.inl ⟨rfl, rfl⟩)

end Within

/-! ## what a step does -/

/-- What a step of a call makes of a client. -/
inductive Effect (content : Nat → String → ByteString) (t : CallId) (c : Client) :
    Client → Prop
  | stays : Effect content t c c
  | waits (elapsed : Nat) : Effect content t c { c with clock := c.clock + elapsed }
  | curl {owner : Option CallId}
      (h : c.curlOwner = none ∧ owner = some t ∨ c.curlOwner = some t ∧ owner = none) :
      Effect content t c { c with curlOwner := owner }
  | refresh {owner : Option CallId}
      (h : c.refreshOwner = none ∧ owner = some t ∨ c.refreshOwner = some t ∧ owner = none) :
      Effect content t c { c with refreshOwner := owner }
  | enters {isOpening : Bool} (h : c.switching = none) :
      Effect content t c { c with switching := some (t, isOpening) }
  | leaves {isOpening : Bool} (h : c.switching = some (t, isOpening))
      (hplaced : isOpening = true → c.stream.isOpen = true → c.record.placed = true) :
      Effect content t c { c with switching := none }
  | puts {s : LiveStream} (h : Kept (Condemned c.record.signs c.clock) c.stream s) :
      Effect content t c (c.put s)
  | opens {s : LiveStream} (h : Kept False { c.stream with isOpen := true } s)
      (hswitching : c.switching = some (t, true)) : Effect content t c (c.put s)
  /-- A section that tells that the buffer is dead. -/
  | tells {s : LiveStream} {sign : Sign} (h : Kept (Condemned (sign :: c.record.signs) c.clock) c.stream s)
      (hsign : streak (sign :: c.record.signs) = streak c.record.signs) :
      Effect content t c ((c.put s).sign sign)
  | counts : Effect content t c ((c.put (c.stream.countFailure c.clock)).sign (.failed c.clock))
  | merges (manifest : Manifest) : Effect content t c (c.merge manifest)
  | delivers {s : LiveStream} {session : Nat} {read : SegmentRead} {answer : FetchAnswer}
      (hs : s =
        { c.stream with
          consecutiveSegmentFetchFailures := 0
          firstSegmentFetchFailureAt := 0
          position := c.stream.position + answer.written.length })
      (hsession : c.session = session) (hposition : c.stream.position = read.position)
      (hchosen : Chosen session read c)
      (hok : answer.written.length ≤ read.wantSize ∧ answer.written <+:
        (content session read.segment.filename).drop read.offsetInSegment.toNat) :
      Effect content t c
        { c with
          stream := s
          record := (c.record.move (.deliver t answer.written)).sign .delivered }
  | answers {result : Int} {bytes : ByteString} (h : HandsBack (c.deliveriesTo t) result bytes) :
      Effect content t c { c with answers := c.answers ++ [(t, result, bytes)] }
  | resets {isOpening : Bool} (h : c.switching = some (t, isOpening)) :
      Effect content t c c.reset
  | places (h : c.switching = some (t, true)) (hplaced : c.record.placed = false) :
      Effect content t c c.place

@[simp] theorem Client.put_self (c : Client) : c.put c.stream = c := by simp [put]

/-- A section that is only entered in its session. -/
theorem within_effect {content : Nat → String → ByteString} {t : CallId} {c : Client} {α : Type}
    {session : Nat} {elsewhere : α} {f : LiveStream → LiveStream × α}
    (h : c.session = session → Kept (Condemned c.record.signs c.clock) c.stream (f c.stream).1) :
    Effect content t c (c.within session elsewhere f).1 := by
  unfold Client.within
  split
  · next hsame =>
      refine .puts (h ?_)
      simp only [Client.stillSameStream, Bool.and_eq_true, beq_iff_eq] at hsame
      exact hsame.2
  · exact .stays

theorem exec_effect {content : Nat → String → ByteString} {host : ByteString} {t : CallId}
    {c c' : Client} {cmd : Cmd} {choice : Choice} {r : Except Failure cmd.Answer}
    (hpromise : Promise content t c cmd) (h : c.exec host t cmd choice = some (c', r)) :
    Effect content t c c' := by
  cases cmd <;> simp only [Client.exec, Option.some.injEq, Prod.mk.injEq] at h
  case now | isAborting | notify | heartbeat | perform | probe | beginLength | currentSession |
      totalBytes | stopBuffer | generateViewerId | startBuffer | probeTarget | accessToken =>
    exact h.1 ▸ .stays
  case sleep ms =>
    have helapsed : c.clock + max ms 0 * 1000000 + choice.longer =
        c.clock + ((max ms 0 * 1000000).toNat + choice.longer : Nat) := by omega
    rw [helapsed] at h
    exact h.1 ▸ .waits _
  case lockCurl =>
    split at h
    · contradiction
    · next hfree =>
        simp only [Option.some.injEq, Prod.mk.injEq] at h
        exact h.1 ▸ .curl (.inl ⟨by simpa using hfree, rfl⟩)
  case unlockCurl => exact h.1 ▸ .curl (.inr ⟨hpromise, rfl⟩)
  case lockRefresh =>
    split at h
    · contradiction
    · next hfree =>
        simp only [Option.some.injEq, Prod.mk.injEq] at h
        exact h.1 ▸ .refresh (.inl ⟨by simpa using hfree, rfl⟩)
  case tryLockRefresh =>
    split at h <;> simp only [Option.some.injEq, Prod.mk.injEq] at h
    · exact h.1 ▸ .stays
    · next hfree => exact h.1 ▸ .refresh (.inl ⟨by simpa using hfree, rfl⟩)
  case unlockRefresh => exact h.1 ▸ .refresh (.inr ⟨hpromise, rfl⟩)
  case beginRefresh force => exact h.1 ▸ .puts kept_beginRefresh
  case requestManifest asked =>
    obtain ⟨rfl, -⟩ := h
    split
    · have htells : Effect content t c ((c.put c.stream).sign .fatalManifest) :=
        .tells (.refl c.stream) rfl
      rwa [Client.put_self] at htells
    · exact .stays
  case mergeManifest session manifest =>
    split at h <;> simp only [Option.some.injEq, Prod.mk.injEq] at h
    · exact h.1 ▸ .merges manifest
    · exact h.1 ▸ .stays
  case arrive size => exact h.1 ▸ .puts kept_arrive
  case resume session size => exact h.1 ▸ within_effect fun _ => kept_goOn
  case afterRefresh session size wait attempt answered refreshFatal =>
    refine h.1 ▸ within_effect fun hsession => ?_
    have hkept : Kept (refreshFatal = true) c.stream
        (c.stream.afterRefresh c.clock size wait attempt answered refreshFatal).1 :=
      kept_afterRefresh
    exact { hkept with
      fatal := fun hfatal => (hkept.fatal hfatal).imp_right fun h => .inl (hpromise h hsession) }
  case afterSleep session size wait answered =>
    exact h.1 ▸ within_effect fun _ => kept_afterSleep answered
  case beginFetch session read =>
    split at h
    · split at h <;> simp only [Option.some.injEq, Prod.mk.injEq] at h
      · exact h.1 ▸ .puts ⟨rfl, rfl, rfl, rfl, .inl⟩
      · exact h.1 ▸ .stays
    · simp only [Option.some.injEq, Prod.mk.injEq] at h
      exact h.1 ▸ .stays
  case endFetch session read answer =>
    have hcases := endFetch_cases (s := c.stream)
      (c.stillSameStream session && decide (c.stream.position = read.position)) read answer
    rcases hcases with ⟨hok, hthere, heq⟩ | ⟨hok, heq⟩ | ⟨houtcome, heq⟩ | ⟨s', hkept, heq⟩
    · rw [heq] at h
      simp only [Option.some.injEq, Prod.mk.injEq] at h
      simp only [Client.stillSameStream, Bool.and_eq_true, beq_iff_eq, decide_eq_true_eq] at hthere
      exact h.1 ▸ .delivers rfl hthere.1.2 hthere.2 hpromise.1 (hpromise.2 hok)
    · rw [heq] at h
      simp only [hok, Option.some.injEq, Prod.mk.injEq, if_true, Client.put_self] at h
      exact h.1 ▸ .stays
    · rw [heq] at h
      rcases houtcome with houtcome | houtcome
      · simp only [houtcome, Option.some.injEq, Prod.mk.injEq, reduceCtorEq, if_false] at h
        exact h.1 ▸ .tells ⟨rfl, rfl, rfl, rfl, fun _ => .inr (.inr (.inl List.mem_cons_self))⟩ rfl
      · simp only [houtcome, Option.some.injEq, Prod.mk.injEq, reduceCtorEq, if_false] at h
        exact h.1 ▸
          .tells ⟨rfl, rfl, rfl, rfl, fun _ => .inr (.inr (.inr (.inl List.mem_cons_self)))⟩ rfl
    · rw [heq] at h
      simp only [Option.some.injEq, Prod.mk.injEq] at h
      exact h.1 ▸ .puts { hkept with fatal := fun hfatal => (hkept.fatal hfatal).imp_right False.elim }
  case countFailure => exact h.1 ▸ .counts
  case giveUp session =>
    split at h <;> simp only [Option.some.injEq, Prod.mk.injEq] at h
    · next hsame => exact h.1 ▸ .puts ⟨rfl, rfl, rfl, rfl, fun _ => .inr (hpromise hsame)⟩
    · exact h.1 ▸ .stays
  case noticed session =>
    obtain ⟨rfl, -⟩ := h
    split
    · exact .puts ⟨rfl, rfl, rfl, rfl, .inl⟩
    · exact .stays
  case fatalNotice =>
    split at h <;> simp only [Option.some.injEq, Prod.mk.injEq] at h
    · exact h.1 ▸ .stays
    · exact h.1 ▸ .puts ⟨rfl, rfl, rfl, rfl, .inl⟩
  case answer result bytes => exact h.1 ▸ .answers hpromise
  case beginSeek =>
    split at h <;> simp only [Option.some.injEq, Prod.mk.injEq] at h
    · exact h.1 ▸ .stays
    · exact h.1 ▸ .puts ⟨rfl, rfl, rfl, rfl, .inl⟩
  case seek position whence => exact h.1 ▸ .puts ⟨rfl, rfl, rfl, rfl, .inl⟩
  case polledFatal session =>
    obtain ⟨rfl, -⟩ := h
    split
    · next hsame =>
        refine .puts ⟨rfl, rfl, rfl, rfl, fun _ => .inr (.inl (hpromise ?_))⟩
        simp only [Client.stillSameStream, Bool.and_eq_true, beq_iff_eq] at hsame
        exact hsame.1.2
    · exact .stays
  case enter isOpening =>
    split at h
    · contradiction
    · next hfree =>
        simp only [Option.some.injEq, Prod.mk.injEq] at h
        exact h.1 ▸ .enters (by simpa using hfree)
  case leave =>
    obtain ⟨isOpening, hswitching, hplaced⟩ := hpromise
    exact h.1 ▸ .leaves hswitching hplaced
  case beginClose => exact h.1 ▸ .puts ⟨rfl, rfl, rfl, rfl, .inl⟩
  case resetClosed =>
    obtain ⟨isOpening, hswitching⟩ := hpromise
    exact h.1 ▸ .resets hswitching
  case reset =>
    obtain ⟨isOpening, hswitching⟩ := hpromise
    exact h.1 ▸ .resets hswitching
  case setViewer viewerId => exact h.1 ▸ .puts ⟨rfl, rfl, rfl, rfl, .inl⟩
  case setToken accessToken => exact h.1 ▸ .puts ⟨rfl, rfl, rfl, rfl, .inl⟩
  case setOpen channelUuid => exact h.1 ▸ .opens ⟨rfl, rfl, rfl, rfl, .inl⟩ hpromise
  case place => exact h.1 ▸ .places hpromise.1 hpromise.2

/-! ## the invariant -/

namespace Client

variable {c : Client} {s : LiveStream}

@[simp] theorem record_put_session : (c.put s).record.session = c.record.session := by
  unfold put
  dsimp only
  split <;> rfl

@[simp] theorem record_put_placed : (c.put s).record.placed = c.record.placed := by
  unfold put
  dsimp only
  split <;> rfl

@[simp] theorem record_put_tape : (c.put s).record.tape = c.record.tape := by
  unfold put
  dsimp only
  split <;> rfl

@[simp] theorem record_put_signs : (c.put s).record.signs = c.record.signs := by
  unfold put
  dsimp only
  split <;> rfl

@[simp] theorem deliveriesTo_put (t : CallId) : (c.put s).deliveriesTo t = c.deliveriesTo t := by
  unfold deliveriesTo put
  dsimp only
  split
  · rfl
  · rw [Record.deliveriesTo_move_jump]

theorem deliveriesTo_reset (t : CallId) : c.reset.deliveriesTo t = c.deliveriesTo t := by
  simp [deliveriesTo, reset, Record.deliveriesTo]

theorem deliveriesTo_place (t : CallId) : c.place.deliveriesTo t = c.deliveriesTo t := by
  simp [deliveriesTo, place, Record.deliveriesTo]

/-- The record follows the position. -/
theorem endOf_put (h : c.stream.position = endOf 0 c.record.moves) :
    s.position = endOf 0 (c.put s).record.moves := by
  unfold put
  dsimp only
  split
  · next hsame => rw [hsame, h]
  · simp [Record.move, endOf]

theorem faithful_put {content : Nat → String → ByteString} (h : c.record.Faithful content) :
    (c.put s).record.Faithful content := by
  unfold put
  dsimp only
  split
  · exact h
  · exact faithful_append.mpr ⟨h, trivial⟩

end Client

/-- The merged segments go on where the tape ended. -/
theorem inRow_foldl_appendEntry {lo : Int} {tape : List LiveTimeshiftSegmentInfo}
    {s : LiveTimeshiftStreamState} (h : InRow lo tape s.totalBytes)
    (entries : List LiveManifestSegmentEntry) (hpos : ∀ e ∈ entries, 0 < e.byteSize) :
    InRow lo
      (tape ++ (entries.foldl .appendEntry s).segments.drop s.segments.length)
      (entries.foldl .appendEntry s).totalBytes ∧
    s.segments <+: (entries.foldl .appendEntry s).segments := by
  induction entries generalizing s tape with
  | nil => exact ⟨by simpa using h, List.prefix_rfl⟩
  | cons entry entries ih =>
      have hentry := hpos entry List.mem_cons_self
      have hnext : InRow lo (tape ++ [.ofEntry entry ⟨s.totalBytes, s.totalDurationMs⟩])
          (s.appendEntry entry).totalBytes := h.concat rfl hentry
      have hsegs : (s.appendEntry entry).segments =
          s.segments ++ [.ofEntry entry ⟨s.totalBytes, s.totalDurationMs⟩] := rfl
      obtain ⟨hrow, hprefix⟩ := ih hnext fun e he => hpos e (List.mem_cons_of_mem _ he)
      rw [hsegs] at hprefix hrow
      obtain ⟨more, hmore⟩ := hprefix
      rw [List.foldl_cons]
      rw [← hmore] at hrow ⊢
      refine ⟨?_, ⟨_, by rw [List.append_assoc]⟩⟩
      rw [List.drop_left] at hrow
      rw [List.append_assoc, List.drop_left, ← List.append_assoc]
      exact hrow

namespace Inv

variable {content : Nat → String → ByteString} {t : CallId} {c : Client}

theorem faithful_record (h : Inv content c) : c.record.Faithful content :=
  h.faithful _ List.mem_cons_self

/-- The past is as it was. -/
theorem faithful_cons (h : Inv content c) {r' : Record} (hr' : r'.Faithful content) :
    ∀ r ∈ r' :: c.past, r.Faithful content := by
  intro r hr
  rcases List.mem_cons.mp hr with rfl | hr
  · exact hr'
  · exact h.faithful r (List.mem_cons_of_mem _ hr)

/-- What was handed over stays so. -/
theorem answers_mono (h : Inv content c) {c' : Client}
    (hmore : ∀ t, c.deliveriesTo t <+: c'.deliveriesTo t) :
    ∀ a ∈ c.answers, a.2.1 = a.2.2.length ∧ a.2.2 ∈ c'.deliveriesTo a.1 ∨
      a.2.2 = [] ∧ a.2.1 ≤ 0 :=
  fun a ha => (h.answers a ha).imp_left fun hgiven => ⟨hgiven.1, (hmore a.1).subset hgiven.2⟩

theorem put (h : Inv content c) {s : LiveStream}
    (hkept : Kept (Condemned c.record.signs c.clock) c.stream s) : Inv content (c.put s) where
  held := by
    obtain ⟨merged, hheld⟩ := h.held
    exact ⟨merged, hkept.space ▸ hheld⟩
  tape := by
    obtain ⟨lo, htape⟩ := h.tape
    refine ⟨lo, ?_⟩
    rw [Client.record_put_tape]
    exact (congrArg _ (congrArg (·.totalBytes) hkept.space)).mpr htape
  suffix := by
    have hsegs : s.segments = c.stream.segments := congrArg (·.segments) hkept.space
    rw [Client.record_put_tape]
    exact hsegs ▸ h.suffix
  position := Client.endOf_put h.position
  faithful := h.faithful_cons (Client.faithful_put h.faithful_record)
  session := by
    rw [Client.record_put_session]
    exact h.session
  placed hopen := by
    rw [Client.record_put_placed]
    exact h.placed (hkept.isOpen ▸ hopen)
  failures := by
    rw [Client.record_put_signs]
    exact hkept.failures.trans h.failures
  firstFailure hsome := by
    rw [Client.record_put_signs]
    show _ = some s.firstSegmentFetchFailureAt
    rw [hkept.firstFailure]
    exact h.firstFailure (hkept.failures ▸ hsome)
  fatal hfatal := by
    rw [Client.record_put_signs]
    exact (hkept.fatal hfatal).elim h.fatal id
  answers := h.answers_mono fun t => by
    simp only [Client.deliveriesTo_put, List.prefix_rfl]

/-- A sign that says nothing of the failures. -/
theorem sign (h : Inv content c) {sign : Sign}
    (hsign : streak (sign :: c.record.signs) = streak c.record.signs)
    : Inv content (c.sign sign) :=
  { h with
    failures := by
      show _ = (streak (sign :: c.record.signs)).length
      rw [hsign]
      exact h.failures
    firstFailure := by
      show _ → (streak (sign :: c.record.signs)).getLast? = _
      rw [hsign]
      exact h.firstFailure
    fatal := fun hfatal => (h.fatal hfatal).mono (List.suffix_cons _ _) (Int.le_refl _)
    faithful := h.faithful_cons h.faithful_record }

/-- A section that tells that the buffer is dead. -/
theorem tell (h : Inv content c) {s : LiveStream} {sign : Sign}
    (hsign : streak (sign :: c.record.signs) = streak c.record.signs)
    (hkept : Kept (Condemned (sign :: c.record.signs) c.clock) c.stream s) :
    Inv content ((c.put s).sign sign) := by
  have hcomm : (c.put s).sign sign = (c.sign sign).put s := by
    unfold Client.sign Client.put
    dsimp only
    split <;> rfl
  rw [hcomm]
  exact (h.sign hsign).put hkept

/-- One more failure is counted. -/
theorem count (h : Inv content c) :
    Inv content ((c.put (c.stream.countFailure c.clock)).sign (.failed c.clock)) := by
  have hput : c.put (c.stream.countFailure c.clock) =
      { c with stream := c.stream.countFailure c.clock } := by
    unfold Client.put
    exact congrArg (fun record => { c with stream := c.stream.countFailure c.clock, record })
      (if_pos rfl)
  rw [hput]
  exact
    { h with
      failures := by
        show c.stream.consecutiveSegmentFetchFailures + 1 = _
        rw [h.failures]
        rfl
      firstFailure := fun _ => by
        show (c.clock :: streak c.record.signs).getLast? =
          some (if c.stream.consecutiveSegmentFetchFailures = 0 then c.clock
            else c.stream.firstSegmentFetchFailureAt)
        have hfailures := h.failures
        split
        · next hnone =>
            rw [hnone] at hfailures
            rw [List.length_eq_zero_iff.mp hfailures.symm]
            rfl
        · next hsome =>
            rw [List.getLast?_cons, h.firstFailure hsome]
            rfl
      fatal := fun hfatal => (h.fatal hfatal).mono (List.suffix_cons _ _) (Int.le_refl _)
      faithful := h.faithful_cons h.faithful_record }

/-- A manifest is merged. -/
theorem merge (h : Inv content c) (manifest : Manifest) : Inv content (c.merge manifest) := by
  obtain ⟨merged, hheld⟩ := h.held
  obtain ⟨lo, htape⟩ := h.tape
  obtain ⟨front, hfront⟩ := h.suffix
  have hentries := (parseNewLiveManifestSegments_spec manifest.segments
    c.stream.lastKnownSequence).1
  obtain ⟨hrow, news, hnews⟩ := inRow_foldl_appendEntry htape
    (parseNewLiveManifestSegments manifest.segments c.stream.lastKnownSequence)
    fun e he => (hentries e he).1.byteSize_pos
  have hmerge : (c.stream.merge manifest.segments).segments = c.stream.segments ++ news := hnews.symm
  have htape' : (c.merge manifest).record.tape = c.record.tape ++ news := by
    show c.record.tape ++ _ = _
    rw [hmerge, List.drop_left]
  have hheld' := LiveSession.ok_refresh (t := { stream := c.stream.toLiveTimeshiftStreamState, merged })
    hheld manifest.segments
  obtain ⟨n, hprune, -⟩ := pruneRolledOffLiveSegments_eq
    (c.stream.merge manifest.segments).segments (c.stream.oldestAfter manifest.segments)
  exact
    { held := ⟨_, hheld'⟩
      tape := ⟨lo, hrow⟩
      suffix := by
        rw [htape']
        show pruneRolledOffLiveSegments _ _ <:+ _
        rw [hprune, hmerge]
        refine (List.drop_suffix n _).trans ⟨front, ?_⟩
        rw [← List.append_assoc, hfront]
      position := h.position
      faithful := by
        have hold : ReadLog.Faithful (c.record.byteAt content) 0 c.record.moves := h.faithful_record
        have hmore : ∀ p b, c.record.byteAt content p = some b →
            (c.merge manifest).record.byteAt content p = some b :=
          fun p b hb =>
            Record.byteAt_append c.record (c.merge manifest).record rfl ⟨news, htape'.symm⟩ hb
        exact h.faithful_cons (hold.mono hmore)
      session := h.session
      placed := h.placed
      failures := h.failures
      firstFailure := h.firstFailure
      fatal := h.fatal
      answers := h.answers }

/-- A part of a segment is handed over. -/
theorem deliver (h : Inv content c) {session : Nat} {read : SegmentRead} {bytes : ByteString}
    (hsession : c.session = session) (hposition : c.stream.position = read.position)
    (hchosen : Chosen session read c) (hlength : bytes.length ≤ read.wantSize)
    (hbytes : bytes <+: (content session read.segment.filename).drop read.offsetInSegment.toNat) :
    Inv content
      { c with
        stream :=
          { c.stream with
            consecutiveSegmentFetchFailures := 0
            firstSegmentFetchFailureAt := 0
            position := c.stream.position + bytes.length }
        record := (c.record.move (.deliver t bytes)).sign .delivered } := by
  obtain ⟨lo, htape⟩ := h.tape
  have hoffset := hchosen.offset
  have hfits := hchosen.fits
  have hshows : Shows (c.record.byteAt content) c.stream.position bytes := by
    intro i b hi
    obtain ⟨hlt, -⟩ := List.getElem?_eq_some_iff.mp hi
    unfold SegmentRead.offsetInSegment at hoffset hfits
    -- the one segment of the tape that has this position is the chosen one
    have hin : contains LiveTimeshiftSegmentInfo.byteOffset LiveTimeshiftSegmentInfo.byteSize
        (c.stream.position + i) read.segment = true := contains_iff.mpr (by omega)
    have hmem := hchosen.tape hsession
    have hbounds := htape.mem hmem
    obtain ⟨seg, hseg, hfind, hcontains, -⟩ := (htape.find?_contains (c.stream.position + i)).1
      (by omega)
    have hsame := htape.eq_of_contains hseg hmem hcontains hin
    have hfound : findSegmentContainingPosition (c.stream.position + i) c.record.tape =
        some read.segment := hsame ▸ hfind
    have hat : (c.stream.position + i - read.segment.byteOffset).toNat =
        read.offsetInSegment.toNat + i := by
      unfold SegmentRead.offsetInSegment
      omega
    obtain ⟨rest, hrest⟩ := hbytes
    rw [Record.byteAt, hfound, Option.bind_some, hat, h.session, hsession, ← List.getElem?_drop,
      ← hrest, List.getElem?_append_left hlt]
    exact hi
  exact
    { h with
      position := by
        show c.stream.position + bytes.length = endOf 0 (c.record.moves ++ [_])
        rw [endOf_append, ← h.position]
        rfl
      faithful := by
        refine h.faithful_cons (faithful_append.mpr ⟨h.faithful_record, ?_, trivial⟩)
        rw [← h.position]
        exact hshows
      failures := rfl
      firstFailure := fun hsome => absurd rfl hsome
      fatal := fun hfatal => (h.fatal hfatal).mono (List.suffix_cons _ _) (Int.le_refl _)
      answers := h.answers_mono fun t' => by
        show _ <+: _ ++ (c.record.move (.deliver t bytes)).deliveriesTo t'
        rw [Record.deliveriesTo_move_deliver, ← List.append_assoc]
        exact List.prefix_append _ _ }

/-- A new stream, and a new session. -/
theorem reset (h : Inv content c) : Inv content c.reset where
  held := ⟨[], held_init⟩
  tape := ⟨0, rfl⟩
  suffix := List.suffix_rfl
  position := rfl
  faithful := by
    intro r hr
    rcases List.mem_cons.mp hr with rfl | hr
    · exact trivial
    · exact h.faithful r hr
  session := rfl
  placed hopen := by cases hopen
  failures := rfl
  firstFailure hsome := absurd rfl hsome
  fatal hfatal := by cases hfatal
  answers := h.answers_mono fun t => by
    simp only [Client.deliveriesTo_reset, List.prefix_rfl]

/-- The open is through. -/
theorem place (h : Inv content c) : Inv content c.place := by
  obtain ⟨merged, hheld⟩ := h.held
  have htrim : Held (trimToTrailingLiveEdgeMargin c.stream.toLiveTimeshiftStreamState
      liveEdgeMarginSegments) merged := hheld.trim (by decide)
  obtain ⟨lo, -, hrow⟩ := htrim.inRow
  exact
    { held := ⟨merged, htrim⟩
      tape := ⟨lo, hrow⟩
      suffix := List.suffix_rfl
      position := rfl
      faithful := by
        intro r hr
        rcases List.mem_cons.mp hr with rfl | hr
        · exact trivial
        · exact h.faithful r hr
      session := h.session
      placed := fun _ => .inl rfl
      failures := h.failures
      firstFailure := h.firstFailure
      fatal := h.fatal
      answers := h.answers_mono fun t => by
        simp only [Client.deliveriesTo_place, List.prefix_rfl] }

/-- **A step of a call keeps the invariant.** -/
theorem step {c' : Client} (h : Inv content c) (heffect : Effect content t c c') :
    Inv content c' := by
  cases heffect with
  | stays => exact h
  | waits elapsed =>
      exact { h with
        fatal := fun hfatal => (h.fatal hfatal).mono List.suffix_rfl (by
          show c.clock ≤ c.clock + elapsed
          omega) }
  | curl hcurl => exact { h with }
  | refresh hrefresh => exact { h with }
  | enters hfree =>
      exact { h with
        placed := fun hopen => by
          rcases h.placed hopen with hplaced | ⟨t', ht'⟩
          · exact .inl hplaced
          · simp [hfree] at ht' }
  | leaves hswitching hplaced =>
      refine { h with placed := fun hopen => .inl ?_ }
      rcases h.placed hopen with hplaced' | ⟨t', ht'⟩
      · exact hplaced'
      · rw [hswitching] at ht'
        obtain ⟨rfl, rfl⟩ := Prod.mk.inj (Option.some.inj ht')
        exact hplaced rfl hopen
  | puts hkept => exact h.put hkept
  | opens hkept hswitching =>
      have hopened : Inv content { c with stream := { c.stream with isOpen := true } } :=
        { h with placed := fun _ => .inr ⟨t, hswitching⟩ }
      exact hopened.put { hkept with fatal := fun hfatal => (hkept.fatal hfatal).imp_right False.elim }
  | tells hkept hsign => exact h.tell hsign hkept
  | counts => exact h.count
  | merges manifest => exact h.merge manifest
  | delivers hs hsession hposition hchosen hok =>
      subst hs
      exact h.deliver hsession hposition hchosen hok.1 hok.2
  | answers hback =>
      refine { h with answers := fun a ha => ?_ }
      rcases List.mem_append.mp ha with ha | ha
      · exact h.answers a ha
      · obtain rfl := List.mem_singleton.mp ha
        rcases hback with ⟨hgiven, hresult⟩ | ⟨-, hnone⟩
        · refine .inl ⟨hresult, ?_⟩
          show _ ∈ c.deliveriesTo t
          rw [hgiven]
          exact List.mem_singleton_self _
        · exact .inr hnone
  | resets hswitching => exact h.reset
  | places hswitching hplaced => exact h.place

end Inv

/-! ## what the others rely on -/

namespace Rely

variable {content : Nat → String → ByteString} {t t' : CallId} {c : Client}

theorem put (s : LiveStream)
    (hopen : ∀ b, c.switching = some (t', b) → s.isOpen = c.stream.isOpen) :
    Rely t' c (c.put s) :=
  { refl t' c with
    signs := fun _ => by
      simp only [Client.record_put_signs, List.suffix_rfl]
    placed := fun _ hplaced => by
      rw [Client.record_put_placed, Client.record_put_tape]
      exact ⟨hplaced, List.prefix_rfl⟩
    opening := fun b hb => ⟨rfl, Client.record_put_placed, hopen b hb⟩
    delivered := Client.deliveriesTo_put t' }

/-- A sign is one more of its session. -/
theorem sign (sign : Sign) : Rely t' c (c.sign sign) :=
  { refl t' c with signs := fun _ => List.suffix_cons _ _ }

/-- **A step of a call is one the others rely on.** -/
theorem step {c' : Client} (heffect : Effect content t c c') (hne : t' ≠ t) : Rely t' c c' := by
  have hmine : ∀ {b b' : Bool}, c.switching = some (t, b) → c.switching ≠ some (t', b') := by
    intro b b' h h'
    exact hne (Prod.mk.inj (Option.some.inj (h'.symm.trans h))).1
  cases heffect with
  | stays => exact refl t' c
  | waits elapsed =>
      exact { refl t' c with
        clock := by
          show c.clock ≤ c.clock + elapsed
          omega }
  | curl hcurl =>
      refine { refl t' c with curl := ?_ }
      rcases hcurl with ⟨hfree, rfl⟩ | ⟨howner, rfl⟩
      · simp [hfree, Ne.symm hne]
      · simp [howner, Ne.symm hne]
  | refresh hrefresh =>
      refine { refl t' c with refresh := ?_ }
      rcases hrefresh with ⟨hfree, rfl⟩ | ⟨howner, rfl⟩
      · simp [hfree, Ne.symm hne]
      · simp [howner, Ne.symm hne]
  | enters hfree =>
      refine { refl t' c with
        switching := fun b => by simp [hfree, Ne.symm hne]
        opening := fun b hb => by simp [hfree] at hb }
  | leaves hswitching hplaced =>
      refine { refl t' c with
        switching := fun b => by simp [hswitching, Ne.symm hne]
        opening := fun b hb => absurd hb (hmine hswitching) }
  | puts hkept => exact put _ fun _ _ => hkept.isOpen
  | opens hkept hswitching => exact put _ fun b hb => absurd hb (hmine hswitching)
  | tells hkept hsign => exact (put _ fun _ _ => hkept.isOpen).trans (sign _)
  | counts => exact (put (c.stream.countFailure c.clock) fun _ _ => rfl).trans (sign _)
  | merges manifest => exact { refl t' c with placed := fun _ hplaced => ⟨hplaced, ⟨_, rfl⟩⟩ }
  | delivers hs hsession hposition hchosen hok =>
      subst hs
      exact { refl t' c with
        signs := fun _ => List.suffix_cons _ _
        delivered := by
          show _ ++ (c.record.move _).deliveriesTo t' = _
          rw [Record.deliveriesTo_move_deliver, if_neg (Ne.symm hne), List.append_nil]
          rfl }
  | answers hback =>
      refine { refl t' c with answers := ?_ }
      simp [Client.answersOf, Ne.symm hne]
  | resets hswitching =>
      exact { refl t' c with
        session := Nat.le_succ _
        signs := fun hsame => absurd hsame (Nat.succ_ne_self _)
        placed := fun hsame => absurd hsame (Nat.succ_ne_self _)
        opening := fun b hb => absurd hb (hmine hswitching)
        delivered := Client.deliveriesTo_reset t' }
  | places hswitching hplaced =>
      exact { refl t' c with
        placed := fun _ hplaced' => by simp [hplaced] at hplaced'
        opening := fun b hb => absurd hb (hmine hswitching)
        delivered := Client.deliveriesTo_place t' }

end Rely

end LiveClient

end DispatcharrPvr
