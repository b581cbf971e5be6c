import DispatcharrPvr.RecordingStream

/-!
# RecordingStream.Runs

What a player gets of a completed recording, over any run of its calls: the bytes
of the file that was opened, in order, and an end that is told once and stays.
-/

namespace DispatcharrPvr

namespace RecordingReader

open ReadLog Runs PermanentReadFailureTracker

/-! ## a try -/

/-- The reader with another handle, at another time. -/
def resume (r : RecordingReader) (curl : Bool) (clock : Int) : RecordingReader :=
  { r with stream.curl := curl, clock }

/-- What a try can make of a reader. -/
inductive Passed (r : RecordingReader) (size : Nat) (start : Int) (apiKeyRefreshed : Bool)
    (transientFailures : Nat) (x : Exchange) : RecordingReader → Pass → Prop
  /-- The key was refreshed. -/
  | rekeyed {clock : Int} (hclock : r.clock ≤ clock) (hfirst : apiKeyRefreshed = false) :
      Passed r size start apiKeyRefreshed transientFailures x (r.resume true clock)
        (.again true transientFailures)
  /-- A failure that may clear, within the budget. -/
  | waited {curl : Bool} {now clock : Int} (hclock : r.clock ≤ now)
      (hwithin : milliseconds (now - start) < kTransientReadBudget)
      (hslept : now + segmentFetchRetryDelayMs (transientFailures + 1) * 1000000 ≤ clock) :
      Passed r size start apiKeyRefreshed transientFailures x (r.resume curl clock)
        (.again apiKeyRefreshed (transientFailures + 1))
  | handedBack {curl : Bool} {clock : Int} (hclock : r.clock ≤ clock) :
      Passed r size start apiKeyRefreshed transientFailures x (r.resume curl clock)
        (.returns (-1) [])
  | failed {clock : Int} (hclock : r.clock ≤ clock) :
      Passed r size start apiKeyRefreshed transientFailures x
        (r.resume true clock).failRecordingReadPermanently.1
        (.returns (r.resume true clock).failRecordingReadPermanently.2 [])
  | ignored {clock : Int} (hclock : r.clock ≤ clock) (hcode : x.httpCode = 200)
      (hpast : 0 < r.stream.position) :
      Passed r size start apiKeyRefreshed transientFailures x
        { r.resume true clock with
          stream := { (r.resume true clock).stream with rangeIgnored := true }
          notices := r.notices ++ [rangeIgnoredNotice] }
        (.returns 0 [])
  | delivered {clock : Int} (hclock : r.clock ≤ clock)
      (hcode : x.httpCode = 206 ∨ x.httpCode = 200 ∧ r.stream.position ≤ 0)
      (hsame : hasRecordingFileChanged r.stream.length x.serverReportedTotal = false) :
      Passed r size start apiKeyRefreshed transientFailures x
        { r.resume true clock with
          stream :=
            { (r.resume true clock).stream with
              position := r.stream.position + (x.chunks.flatten.take size).length
              permanentReadFailures := r.stream.permanentReadFailures.reset }
          moves := r.moves ++ [.deliver () (x.chunks.flatten.take size)]
          failures := [] }
        (.returns (x.chunks.flatten.take size).length (x.chunks.flatten.take size))

theorem classifyRecordingReadResponse_eq_ok_iff {transferOk : Bool} {httpCode : Int}
    {refreshed : Bool} {position cachedLength serverReportedTotal : Int} :
    classifyRecordingReadResponse transferOk httpCode refreshed position cachedLength
        serverReportedTotal = .ok ↔
      transferOk = true ∧ (httpCode = 206 ∨ httpCode = 200 ∧ position ≤ 0) ∧
        hasRecordingFileChanged cachedLength serverReportedTotal = false := by
  unfold classifyRecordingReadResponse isTransientReadFailure serverIgnoredRangeRequest
  cases transferOk <;> cases refreshed <;> simp
  all_goals grind

theorem classifyRecordingReadResponse_rangeIgnored {transferOk : Bool} {httpCode : Int}
    {refreshed : Bool} {position cachedLength serverReportedTotal : Int}
    (h : classifyRecordingReadResponse transferOk httpCode refreshed position cachedLength
      serverReportedTotal = .rangeIgnored) : httpCode = 200 ∧ 0 < position := by
  unfold classifyRecordingReadResponse serverIgnoredRangeRequest at h
  grind

theorem classifyRecordingReadResponse_refresh {transferOk : Bool} {httpCode : Int}
    {refreshed : Bool} {position cachedLength serverReportedTotal : Int}
    (h : classifyRecordingReadResponse transferOk httpCode refreshed position cachedLength
      serverReportedTotal = .refreshApiKeyAndRetry) : refreshed = false := by
  unfold classifyRecordingReadResponse at h
  grind

section Pass

variable {r : RecordingReader} {size : Nat} {start : Int} {apiKeyRefreshed : Bool}
  {transientFailures : Nat} {x : Exchange}

theorem passed_settleRead {clock : Int} {transferOk refreshed : Bool} (hclock : r.clock ≤ clock)
    {outcome : RecordingReadOutcome}
    (houtcome : classifyRecordingReadResponse transferOk x.httpCode refreshed r.stream.position
      r.stream.length x.serverReportedTotal = outcome) {r' : RecordingReader} {pass : Pass}
    (h : (r.resume true clock).settleRead start apiKeyRefreshed transientFailures x transferOk
      (x.chunks.flatten.take size) outcome = (r', pass)) :
    Passed r size start apiKeyRefreshed transientFailures x r' pass := by
  cases outcome with
  | refreshApiKeyAndRetry | failPermanently | fileChanged =>
      obtain ⟨rfl, rfl⟩ := Prod.mk.inj h
      exact .failed hclock
  | rangeIgnored =>
      obtain ⟨hcode, hpast⟩ := classifyRecordingReadResponse_rangeIgnored houtcome
      obtain ⟨rfl, rfl⟩ := Prod.mk.inj h
      exact .ignored hclock hcode hpast
  | ok =>
      obtain ⟨-, hcode, hsame⟩ := classifyRecordingReadResponse_eq_ok_iff.mp houtcome
      obtain ⟨rfl, rfl⟩ := Prod.mk.inj h
      exact .delivered hclock hcode hsame
  | retryTransient =>
      simp only [settleRead] at h
      split at h
      · next hgo =>
          obtain ⟨rfl, rfl⟩ := Prod.mk.inj h
          simp only [Bool.and_eq_true, shouldKeepRetryingTransientRead, decide_eq_true_eq] at hgo
          refine .waited hclock hgo.2 ?_
          show clock + _ ≤ clock + _ + (x.longer : Int)
          omega
      · obtain ⟨rfl, rfl⟩ := Prod.mk.inj h
        exact .handedBack hclock

/-- What a try comes to. -/
theorem passed_pass {r' : RecordingReader} {pass : Pass}
    (h : r.pass size start apiKeyRefreshed transientFailures x = (r', pass)) :
    Passed r size start apiKeyRefreshed transientFailures x r' pass := by
  have hclock : r.clock ≤ r.clock + x.elapsed := by omega
  have hwritten := FixedBufferSink.transfer_written
    { capacity := size, abortWhenFull := true } x.chunks (Nat.zero_le _)
  rw [List.nil_append] at hwritten
  unfold RecordingReader.pass at h
  split at h
  · obtain ⟨rfl, rfl⟩ := Prod.mk.inj h
    exact .handedBack (Int.le_refl _)
  · dsimp only at h
    rw [hwritten] at h
    split at h
    · next hrefresh =>
        split at h
        · obtain ⟨rfl, rfl⟩ := Prod.mk.inj h
          exact .rekeyed hclock (classifyRecordingReadResponse_refresh hrefresh)
        · exact passed_settleRead hclock rfl h
    · exact passed_settleRead hclock rfl h

end Pass

/-! ## a read -/

/-- A read ends with one of its tries, and all before it have left only the handle
and the time; it makes no request behind that. -/
theorem readLoop_spec {size : Nat} {start : Int} {script : List Exchange}
    {r r' : RecordingReader} {apiKeyRefreshed : Bool} {transientFailures : Nat} {result : Int}
    {bytes : ByteString}
    (h : readLoop size start apiKeyRefreshed transientFailures script r = some (r', result, bytes)) :
    ∃ curl clock, r.clock ≤ clock ∧ ∃ before x after, script = before ++ x :: after ∧
      readLoop size start apiKeyRefreshed transientFailures before r = none ∧
      (∀ rest, readLoop size start apiKeyRefreshed transientFailures (before ++ x :: rest) r =
        some (r', result, bytes)) ∧
      ∃ refreshed failures,
        Passed (r.resume curl clock) size start refreshed failures x r' (.returns result bytes) := by
  induction script generalizing r apiKeyRefreshed transientFailures with
  | nil => cases h
  | cons x script ih =>
      rw [readLoop] at h
      generalize hpass : r.pass size start apiKeyRefreshed transientFailures x = passed at h
      obtain ⟨passedReader, pass⟩ := passed
      have hpassed := passed_pass hpass
      cases pass with
      | returns result' bytes' =>
          obtain ⟨rfl, rfl, rfl⟩ : passedReader = r' ∧ result' = result ∧ bytes' = bytes := by
            simpa using h
          refine ⟨r.stream.curl, r.clock, Int.le_refl _, [], x, script, rfl, rfl, fun rest => ?_,
            _, _, hpassed⟩
          rw [List.nil_append, readLoop, hpass]
      | again refreshed failures =>
          obtain ⟨curl, clock, hclock, before, x', after, rfl, hmore, hends, hlast⟩ := ih h
          have hagain : ∃ curl' clock', r.clock ≤ clock' ∧ passedReader = r.resume curl' clock' := by
            cases hpassed with
            | rekeyed hlater hfirst => exact ⟨_, _, hlater, rfl⟩
            | waited hlater hwithin hslept =>
                have hdelay := (segmentFetchRetryDelayMs_bounds (transientFailures + 1)).1
                exact ⟨_, _, by omega, rfl⟩
          obtain ⟨curl', clock', hclock', rfl⟩ := hagain
          refine ⟨curl, clock, Int.le_trans hclock' hclock, x :: before, x', after, rfl, ?_,
            fun rest => ?_, hlast⟩
          · rw [readLoop, hpass]
            exact hmore
          · rw [List.cons_append, readLoop, hpass]
            exact hends rest

/-- The stream has been ended for good. -/
def Dead (r : RecordingReader) : Prop :=
  r.stream.rangeIgnored = true ∨ r.stream.permanentReadFailures.ended = true

/-- A failure that will not clear leaves the position where it is, and ends the stream
when it answers 0. -/
theorem failRecordingReadPermanently_spec (r : RecordingReader) :
    r.failRecordingReadPermanently.1.moves = r.moves ∧ r.failRecordingReadPermanently.2 ≤ 0 ∧
      (r.failRecordingReadPermanently.2 = 0 →
        r.failRecordingReadPermanently.1.stream.permanentReadFailures.ended = true) := by
  have hminus : (-1 : Int) ≤ 0 := by decide
  have hother : (-1 : Int) ≠ 0 := by decide
  have hended := PermanentReadFailureTracker.record_snd r.stream.permanentReadFailures r.clock
  unfold failRecordingReadPermanently
  dsimp only
  split
  · next hend => exact ⟨rfl, Int.le_refl _, fun _ => hended.symm.trans hend⟩
  · exact ⟨rfl, hminus, fun hzero => absurd hzero hother⟩

/-- A read ends with this answer: with those before it alone it goes on, and it makes no
request behind it. -/
def EndsWith (r : RecordingReader) (size : Nat) (script : List Exchange) (x : Exchange) : Prop :=
  ∃ before after, script = before ++ x :: after ∧ r.readRecordingStream size before = none ∧
    ∀ rest, r.readRecordingStream size (before ++ x :: rest) = r.readRecordingStream size script

theorem EndsWith.mem {r : RecordingReader} {size : Nat} {script : List Exchange} {x : Exchange}
    (h : r.EndsWith size script x) : x ∈ script := by
  obtain ⟨before, after, rfl, -⟩ := h
  simp

/-- What a read comes to: nothing is asked for, or the last try of its loop. -/
theorem read_cases {r r' : RecordingReader} {size : Nat} {script : List Exchange} {result : Int}
    {bytes : ByteString} (h : r.readRecordingStream size script = some (r', result, bytes)) :
    (r' = r ∧ bytes = [] ∧
      (result = 0 ∧ (r.stream.isOpen = false ∨ size = 0 ∨
        (0 ≤ r.stream.length ∧ r.stream.length ≤ r.stream.position) ∨ r.Dead) ∨
      result = -1 ∧ readRangeEnd r.stream.position size = none)) ∨
    (r.stream.isOpen = true ∧ ¬ r.Dead ∧ ∃ curl clock, r.clock ≤ clock ∧
      ∃ x, r.EndsWith size script x ∧ ∃ refreshed failures,
        Passed (r.resume curl clock) size r.clock refreshed failures x r'
          (.returns result bytes)) := by
  have hnothing : ∀ result', some (r, result', ([] : ByteString)) = some (r', result, bytes) →
      r' = r ∧ bytes = [] ∧ result = result' := by
    intro result' heq
    obtain ⟨rfl, rfl, rfl⟩ : r = r' ∧ result' = result ∧ [] = bytes := by simpa using heq
    exact ⟨rfl, rfl, rfl⟩
  have hread := h
  unfold readRecordingStream at h
  split at h
  · next hclosed =>
      obtain ⟨rfl, rfl, rfl⟩ := hnothing _ h
      refine .inl ⟨rfl, rfl, .inl ⟨rfl, ?_⟩⟩
      simp only [Bool.or_eq_true, Bool.not_eq_true', beq_iff_eq] at hclosed
      exact hclosed.imp_right .inl
  · next hopen =>
      simp only [Bool.or_eq_true, Bool.not_eq_true', beq_iff_eq, not_or, Bool.not_eq_false] at hopen
      split at h
      · next hend =>
          obtain ⟨rfl, rfl, rfl⟩ := hnothing _ h
          exact .inl ⟨rfl, rfl, .inl ⟨rfl, .inr (.inr (.inl hend))⟩⟩
      · split at h
        · next hrange =>
            obtain ⟨rfl, rfl, rfl⟩ := hnothing _ h
            exact .inl ⟨rfl, rfl, .inr ⟨rfl, hrange⟩⟩
        · split at h
          · next hignored =>
              obtain ⟨rfl, rfl, rfl⟩ := hnothing _ h
              exact .inl ⟨rfl, rfl, .inl ⟨rfl, .inr (.inr (.inr (.inl hignored)))⟩⟩
          · next hranges =>
              split at h
              · next hended =>
                  obtain ⟨rfl, rfl, rfl⟩ := hnothing _ h
                  exact .inl ⟨rfl, rfl, .inl ⟨rfl, .inr (.inr (.inr (.inr hended)))⟩⟩
              · next hgoing =>
                  obtain ⟨curl, clock, hclock, before, x, after, hscript, hmore, hends, hlast⟩ :=
                    readLoop_spec h
                  refine .inr ⟨hopen.1, not_or.mpr ⟨hranges, hgoing⟩, curl, clock, hclock, x,
                    ⟨before, after, hscript, ?_, fun rest => ?_⟩, hlast⟩
                  · simp [readRecordingStream, *]
                  · rw [hread]
                    simp [readRecordingStream, *]

/-! ## an open -/

/-- What an open leaves of a closed reader: nothing new, a notice, or a stream. -/
theorem openLoop_cases {r r' : RecordingReader} {notifyViewer : Bool} {url : ByteString}
    {probes : List Probe} {answer : Except String Unit} {left : Nat} {apiKeyRefreshed : Bool}
    (h : openLoop notifyViewer url left apiKeyRefreshed probes r = some (r', answer)) :
    r' = r ∨ (∃ notice, r' = { r with notices := r.notices ++ [notice] }) ∨
      ∃ url' length, r' = { r with
        stream := { r.stream with isOpen := true, url := url', length := length, position := 0 }
        moves := r.moves ++ [.jump 0] } := by
  induction left generalizing probes apiKeyRefreshed with
  | zero =>
      obtain ⟨rfl, -⟩ := Prod.mk.inj (Option.some.inj h)
      exact .inl rfl
  | succ left ih =>
      cases probes with
      | nil => cases h
      | cons probe probes =>
          have hsettled : ∀ outcome, some (r.settleOpen notifyViewer url probe outcome) =
              some (r', answer) → r' = r ∨
                (∃ notice, r' = { r with notices := r.notices ++ [notice] }) ∨
                ∃ url' length, r' = { r with
                  stream := { r.stream with
                    isOpen := true, url := url', length := length, position := 0 }
                  moves := r.moves ++ [.jump 0] } := by
            intro outcome h
            have hreader : (r.settleOpen notifyViewer url probe outcome).1 = r' :=
              congrArg Prod.fst (Option.some.inj h)
            cases outcome with
            | transferFailed => exact .inl hreader.symm
            | inProgressRecording => exact .inl hreader.symm
            | ok => exact .inr (.inr ⟨_, _, hreader.symm⟩)
            | refreshApiKeyAndRetry | httpFailure =>
                simp only [settleOpen] at hreader
                generalize (if notifyViewer = true then describeRecordingOpenFailure probe.httpCode
                  else "") = message at hreader
                split at hreader
                · exact .inl hreader.symm
                · exact .inr (.inl ⟨_, hreader.symm⟩)
          unfold openLoop at h
          split at h
          · obtain ⟨rfl, -⟩ := Prod.mk.inj (Option.some.inj h)
            exact .inl rfl
          · dsimp only at h
            split at h
            · split at h
              · exact ih h
              · exact hsettled _ h
            · exact hsettled _ h

/-- A seek goes nowhere, or to a position of its own. -/
theorem seek_cases (position whence : Int) (r : RecordingReader) :
    (r.seekRecordingStream position whence).1 = r ∨
      ∃ newPos, 0 ≤ newPos ∧ (r.seekRecordingStream position whence).1 =
        { r with stream.position := newPos, moves := r.moves ++ [.jump newPos] } := by
  unfold seekRecordingStream
  split
  · exact .inl rfl
  · dsimp only
    split
    · exact .inl rfl
    · next hnonneg => exact .inr ⟨_, Int.not_lt.mp hnonneg, rfl⟩

/-! ## what is played -/

/-- What a file has at a position. -/
def fileAt (file : ByteString) (p : Int) : Option UInt8 := if p < 0 then none else file[p.toNat]?

/-- An answer that is taken for the file's has the file's bytes: a 206 from the
position on, a 200 from the start. -/
def Honest (file : ByteString) (position length : Int) (x : Exchange) : Prop :=
  hasRecordingFileChanged length x.serverReportedTotal = false →
    (x.httpCode = 206 → x.chunks.flatten <+: file.drop position.toNat) ∧
    (x.httpCode = 200 → x.chunks.flatten <+: file)

/-- What the server is supposed to answer to a call, by the files of the sessions. -/
def supposed (content : Nat → ByteString) (r : RecordingReader) : Op → Prop
  | .read _ script => ∀ x ∈ script, Honest (content r.session) r.stream.position r.stream.length x
  | _ => True

instance (file : ByteString) (position length : Int) (x : Exchange) :
    Decidable (Honest file position length x) :=
  inferInstanceAs (Decidable (_ → _))

instance (content : Nat → ByteString) (r : RecordingReader) :
    (op : Op) → Decidable (supposed content r op)
  | .read _ script => inferInstanceAs (Decidable (∀ x ∈ script, _))
  | .open .. | .close | .seek .. | .wait _ => .isTrue trivial

/-- The position is where the moves have led, and they show the file. -/
structure Plays (content : Nat → ByteString) (r : RecordingReader) : Prop where
  position : r.stream.position = endOf 0 r.moves
  nonneg : 0 ≤ r.stream.position
  faithful : Faithful (fileAt (content r.session)) 0 r.moves

namespace Plays

variable {content : Nat → ByteString} {r r' : RecordingReader}

theorem resume (h : Plays content r) (curl : Bool) (clock : Int) :
    Plays content (r.resume curl clock) := { h with }

theorem closed (content : Nat → ByteString) (r : RecordingReader) :
    Plays content r.closeRecordingStream where
  position := rfl
  nonneg := Int.le_refl _
  faithful := trivial

/-- A jump shows nothing. -/
theorem jump (h : Plays content r) {position : Int} (hnonneg : 0 ≤ position)
    (hposition : r'.stream.position = position) (hmoves : r'.moves = r.moves ++ [.jump position])
    (hsession : r'.session = r.session) : Plays content r' where
  position := by
    rw [hposition, hmoves, endOf_append]
    rfl
  nonneg := hposition ▸ hnonneg
  faithful := by
    rw [hsession, hmoves]
    exact faithful_append.mpr ⟨h.faithful, trivial⟩

theorem fail (h : Plays content r) : Plays content r.failRecordingReadPermanently.1 := by
  unfold failRecordingReadPermanently
  dsimp only
  split <;> exact { h with }

/-- **The bytes of a delivery** are the file's. -/
theorem deliver (h : Plays content r) {size : Nat} {x : Exchange}
    {tracker : PermanentReadFailureTracker} {failures : List Int}
    (hhonest : Honest (content r.session) r.stream.position r.stream.length x)
    (hcode : x.httpCode = 206 ∨ x.httpCode = 200 ∧ r.stream.position ≤ 0)
    (hsame : hasRecordingFileChanged r.stream.length x.serverReportedTotal = false) :
    Plays content
      { r with
        stream :=
          { r.stream with
            position := r.stream.position + (x.chunks.flatten.take size).length
            permanentReadFailures := tracker }
        moves := r.moves ++ [.deliver () (x.chunks.flatten.take size)]
        failures := failures } := by
  have hnonneg := h.nonneg
  have hbody : x.chunks.flatten.take size <+:
      (content r.session).drop r.stream.position.toNat := by
    refine (List.take_prefix _ _).trans ?_
    obtain ⟨hpart, hwhole⟩ := hhonest hsame
    rcases hcode with hcode | ⟨hcode, hstart⟩
    · exact hpart hcode
    · have hzero : r.stream.position.toNat = 0 := by omega
      rw [hzero, List.drop_zero]
      exact hwhole hcode
  have hshows : Shows (fileAt (content r.session)) r.stream.position
      (x.chunks.flatten.take size) := by
    have hstart : r.stream.position = (r.stream.position.toNat : Int) := by omega
    rw [hstart]
    exact shows_getElem?_iff.mpr (List.prefix_iff_eq_take.mp hbody)
  exact
    { position := by
        rw [endOf_append, ← h.position]
        rfl
      nonneg := by
        show 0 ≤ r.stream.position + _
        omega
      faithful := by
        refine faithful_append.mpr ⟨h.faithful, ?_, trivial⟩
        rw [← h.position]
        exact hshows }

/-- A try keeps it. -/
theorem passed (h : Plays content r) {size : Nat} {start : Int} {apiKeyRefreshed : Bool}
    {transientFailures : Nat} {x : Exchange} {pass : Pass}
    (hhonest : Honest (content r.session) r.stream.position r.stream.length x)
    (hpassed : Passed r size start apiKeyRefreshed transientFailures x r' pass) :
    Plays content r' := by
  cases hpassed with
  | rekeyed hclock hfirst => exact h.resume _ _
  | waited hclock hwithin hslept => exact h.resume _ _
  | handedBack hclock => exact h.resume _ _
  | failed hclock => exact (h.resume true _).fail
  | ignored hclock hcode hpast => exact { h with }
  | delivered hclock hcode hsame => exact (h.resume true _).deliver hhonest hcode hsame

/-- **A call keeps to the file.** -/
theorem step (h : Plays content r) {op : Op} (hsupposed : supposed content r op)
    (hstep : r.step op = some r') : Plays content r' := by
  cases op with
  | «open» notifyViewer url probes =>
      obtain ⟨⟨r'', answer⟩, hopened, rfl⟩ := Option.map_eq_some_iff.mp hstep
      have hclosed := closed content r
      rcases openLoop_cases hopened with rfl | ⟨notice, rfl⟩ | ⟨url', length, rfl⟩
      · exact hclosed
      · exact { hclosed with }
      · exact hclosed.jump (Int.le_refl 0) rfl rfl rfl
  | close =>
      obtain rfl := Option.some.inj hstep
      exact closed content r
  | seek position whence =>
      obtain rfl := Option.some.inj hstep
      rcases seek_cases position whence r with heq | ⟨newPos, hnonneg, heq⟩ <;> rw [heq]
      · exact h
      · exact h.jump hnonneg rfl rfl rfl
  | read size script =>
      obtain ⟨⟨r'', result, bytes⟩, hread, rfl⟩ := Option.map_eq_some_iff.mp hstep
      rcases read_cases hread with ⟨rfl, -⟩ | ⟨-, -, curl, clock, -, x, hx, _, _, hpassed⟩
      · exact h
      · exact (h.resume curl clock).passed (hsupposed x hx.mem) hpassed
  | wait elapsed =>
      obtain rfl := Option.some.inj hstep
      exact { h with }

end Plays

theorem plays_init (content : Nat → ByteString) : Plays content {} where
  position := rfl
  nonneg := Int.le_refl _
  faithful := trivial

/-! ## what is told -/

/-- The failures in a row are tracked, and nothing is told of a stream that plays. -/
structure Told (r : RecordingReader) : Prop where
  tracks : r.stream.permanentReadFailures.Tracks r.failures
  told : r.notices.length ≤ 1
  untold : r.stream.isOpen = true → ¬ r.Dead → r.notices = []

namespace Told

variable {r r' : RecordingReader}

theorem resume (h : Told r) (curl : Bool) (clock : Int) : Told (r.resume curl clock) := { h with }

theorem closed (r : RecordingReader) : Told r.closeRecordingStream where
  tracks := tracks_init
  told := Nat.zero_le _
  untold _ _ := rfl

/-- A failure that will not clear is counted, and told when it is the last. -/
theorem fail (h : Told r) (hopen : r.stream.isOpen = true) (halive : ¬ r.Dead) :
    Told r.failRecordingReadPermanently.1 := by
  have hnone := h.untold hopen halive
  obtain ⟨hranges, hgoing⟩ := not_or.mp halive
  have htracks := h.tracks.record (by simpa using hgoing) r.clock
  have hended := record_snd r.stream.permanentReadFailures r.clock
  unfold failRecordingReadPermanently
  dsimp only
  split
  · next hend =>
      exact
        { tracks := htracks
          told := by simp [hnone]
          untold := fun _ halive => absurd (.inr (hended ▸ hend)) halive }
  · next hgoesOn =>
      exact
        { tracks := htracks
          told := h.told
          untold := fun _ _ => hnone }

theorem passed (h : Told r) (hopen : r.stream.isOpen = true) (halive : ¬ r.Dead)
    {size : Nat} {start : Int} {apiKeyRefreshed : Bool} {transientFailures : Nat} {x : Exchange}
    {pass : Pass} (hpassed : Passed r size start apiKeyRefreshed transientFailures x r' pass) :
    Told r' := by
  have hnone := h.untold hopen halive
  cases hpassed with
  | rekeyed hclock hfirst => exact h.resume _ _
  | waited hclock hwithin hslept => exact h.resume _ _
  | handedBack hclock => exact h.resume _ _
  | failed hclock => exact (h.resume true _).fail hopen halive
  | ignored hclock hcode hpast =>
      exact
        { tracks := h.tracks
          told := by simp [hnone]
          untold := fun _ halive' => absurd (.inl rfl) halive' }
  | delivered hclock hcode hsame =>
      exact
        { tracks := tracks_reset (by simpa using (not_or.mp halive).2)
          told := h.told
          untold := fun _ _ => hnone }

theorem read (h : Told r) {size : Nat} {script : List Exchange} {result : Int}
    {bytes : ByteString} (hread : r.readRecordingStream size script = some (r', result, bytes)) :
    Told r' := by
  rcases read_cases hread with ⟨rfl, -⟩ | ⟨hopen, halive, curl, clock, -, x, hx, _, _, hpassed⟩
  · exact h
  · exact (h.resume curl clock).passed hopen halive hpassed

/-- **A call tells what is to be told**, once. -/
theorem step (h : Told r) {op : Op} (hstep : r.step op = some r') : Told r' := by
  cases op with
  | «open» notifyViewer url probes =>
      obtain ⟨⟨r'', answer⟩, hopened, rfl⟩ := Option.map_eq_some_iff.mp hstep
      have hclosed := closed r
      rcases openLoop_cases hopened with rfl | ⟨notice, rfl⟩ | ⟨url', length, rfl⟩
      · exact hclosed
      · exact { hclosed with
          told := Nat.le_refl _
          untold := fun hopen => by cases hopen }
      · exact { hclosed with untold := fun _ _ => rfl }
  | close =>
      obtain rfl := Option.some.inj hstep
      exact closed r
  | seek position whence =>
      obtain rfl := Option.some.inj hstep
      rcases seek_cases position whence r with heq | ⟨newPos, -, heq⟩ <;> rw [heq] <;>
        exact { h with }
  | read size script =>
      obtain ⟨⟨r'', result, bytes⟩, hread, rfl⟩ := Option.map_eq_some_iff.mp hstep
      exact h.read hread
  | wait elapsed =>
      obtain rfl := Option.some.inj hstep
      exact { h with }

end Told

/-- A call on the stream that is open. -/
def Op.Stays : Op → Prop
  | .open .. | .close => False
  | .seek .. | .read .. | .wait _ => True

section Runs

variable {content : Nat → ByteString} {ops : List Op} {r : RecordingReader}

/-- **A recording is played as it is.** Over any run of opens, seeks and reads, what is
handed over between two changes of the position is one stretch of the file that was
opened; played through from its start without a seek, it is the file.  And a read
hands over just what it says. -/
theorem recording_reads_faithful (hsupposed : Meets step (supposed content) {} ops)
    (hrun : run step {} ops = some r) :
    (∀ before moves after, r.moves = before ++ moves ++ after → Straight moves →
      Shows (fileAt (content r.session)) (endOf 0 before) (delivered moves)) ∧
    (∀ moves, r.moves = .jump 0 :: moves → Straight moves →
      (content r.session).length ≤ r.stream.position → delivered moves = content r.session) ∧
    ∀ size script r' result bytes,
      r.readRecordingStream size script = some (r', result, bytes) →
        r'.moves = r.moves ++ [.deliver () bytes] ∧ result = bytes.length ∧ bytes.length ≤ size ∨
        r'.moves = r.moves ∧ bytes = [] ∧ result ≤ 0 := by
  have hplays : Plays content r :=
    invariant_of_meets (fun h hC hs => Plays.step h hC hs) (plays_init content) hsupposed hrun
  refine ⟨fun before moves after heq hstraight => ?_, fun moves heq hstraight hend => ?_,
    fun size script r' result bytes hread => ?_⟩
  · exact Faithful.stretch_within (heq ▸ hplays.faithful) hstraight
  · have hfaithful : Faithful (fileAt (content r.session)) 0 moves := by
      have hall := hplays.faithful
      rwa [heq] at hall
    obtain ⟨hshows, hmoved⟩ := hfaithful.stretch hstraight
    have hposition : r.stream.position = endOf 0 moves := by
      rw [hplays.position, heq]
      rfl
    have hlist : delivered moves = ((content r.session).drop 0).take (delivered moves).length :=
      shows_getElem?_iff.mp hshows
    rw [hlist, List.drop_zero, List.take_of_length_le (by omega)]
  · rcases read_cases hread with ⟨rfl, rfl, hresult⟩ | ⟨-, -, curl, clock, -, x, -, _, _, hpassed⟩
    · refine .inr ⟨rfl, rfl, ?_⟩
      rcases hresult with ⟨rfl, -⟩ | ⟨rfl, -⟩ <;> decide
    · cases hpassed with
      | handedBack hclock => exact .inr ⟨rfl, rfl, by decide⟩
      | ignored hclock hcode hpast => exact .inr ⟨rfl, rfl, Int.le_refl _⟩
      | delivered hclock hcode hsame => exact .inl ⟨rfl, rfl, List.length_take_le _ _⟩
      | failed hclock =>
          obtain ⟨hmoves, hresult, -⟩ :=
            failRecordingReadPermanently_spec ((r.resume curl clock).resume true _)
          exact .inr ⟨hmoves, rfl, hresult⟩

/-- A recording of three bytes, played in two reads. -/
def threeBytes : List Op :=
  [.open true (ascii "http://tv/file") [{ totalLength := 3 }],
    .read 2 [{ chunks := [[10], [20, 30]], serverReportedTotal := 3, transferOk := false }],
    .read 2 [{ chunks := [[30]], serverReportedTotal := 3 }]]

theorem recording_reads_faithful_threeBytes :
    ∃ r, run step {} threeBytes = some r ∧ delivered (r.moves.drop 1) = [10, 20, 30] := by
  have hsome : (run step {} threeBytes).isSome := by decide +kernel
  have hsupposed : Meets step (supposed fun _ => [10, 20, 30]) {} threeBytes := by decide +kernel
  have hmoves : (Option.get _ hsome).moves =
      .jump 0 :: [.deliver () [10, 20], .deliver () [30]] := by decide +kernel +revert
  have hposition : 3 ≤ (Option.get _ hsome).stream.position := by decide +kernel +revert
  have hfaithful := recording_reads_faithful hsupposed (Option.some_get hsome).symm
  refine ⟨_, (Option.some_get hsome).symm, ?_⟩
  rw [hmoves]
  exact hfaithful.2.1 _ hmoves (by simp [Straight]) hposition

end Runs

end RecordingReader

end DispatcharrPvr
