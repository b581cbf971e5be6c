import DispatcharrPvr.Lib.Runs
import Mathlib.Data.List.Induction

/-!
# ConnectionReport

What Kodi is told about the link to the server: `LinkHealth`, which decides
from the run of request outcomes whether the server can be reached, and
`ConnectionReportLatch`, which hands the newest observation to the thread that
talks to Kodi.

Time points are nanoseconds of the steady clock.
-/

namespace DispatcharrPvr

/-- `ConnectionReport`. -/
inductive ConnectionReport where
  | none
  | connected
  | unreachable
  | accessDenied
  | serverMismatch
  | disconnected
deriving DecidableEq, Repr

/-- `ShouldCountTowardLoginBackoff`. -/
def shouldCountTowardLoginBackoff (httpCode : Int) : Bool :=
  httpCode == 400 || httpCode == 401 || httpCode == 403 || httpCode == 429

/-- `ReportForAuthFailure`. -/
def reportForAuthFailure (httpStatus : Int) (callerHasShortBound : Bool) : ConnectionReport :=
  if httpStatus = 429 then .none
  else if shouldCountTowardLoginBackoff httpStatus then .accessDenied
  else if httpStatus = 0 then if callerHasShortBound then .none else .unreachable
  else if (httpStatus ≥ 200 ∧ httpStatus < 400) ∨ httpStatus = 404 ∨ httpStatus = 405 ∨
      httpStatus = 501 then .serverMismatch
  else if httpStatus ≥ 500 then .unreachable
  else .none

/-! ## LinkHealth -/

/-- `IsConnectLevelFailure`, by libcurl's result codes. -/
def isConnectLevelFailure (curlCode : Int) (connectNeverCompleted : Bool) : Bool :=
  match curlCode with
  | 5 => true -- CURLE_COULDNT_RESOLVE_PROXY
  | 6 => true -- CURLE_COULDNT_RESOLVE_HOST
  | 7 => true -- CURLE_COULDNT_CONNECT
  | 52 => true -- CURLE_GOT_NOTHING
  | 55 => true -- CURLE_SEND_ERROR
  | 56 => true -- CURLE_RECV_ERROR
  | 28 => connectNeverCompleted -- CURLE_OPERATION_TIMEDOUT
  | _ => false

/-- The arguments of `LinkHealth::OnAttempt`: one finished request. -/
structure LinkAttempt where
  now : Int
  curlCode : Int := 0
  httpCode : Int := 0
  authenticated : Bool := false
  connectNeverCompleted : Bool := false
deriving DecidableEq, Repr

namespace LinkAttempt

/-- A failure that says the server cannot be reached at all. -/
def connectFailed (attempt : LinkAttempt) : Bool :=
  attempt.curlCode != 0 && isConnectLevelFailure attempt.curlCode attempt.connectNeverCompleted

/-- An answer with a status below 500. -/
def answered (attempt : LinkAttempt) : Bool :=
  attempt.curlCode == 0 && !decide (attempt.httpCode ≥ 500)

end LinkAttempt

/-- `LinkHealth`. -/
structure LinkHealth where
  failures : Nat := 0
  firstFailure : Int := 0
  lastFailure : Int := 0
deriving DecidableEq, Repr

namespace LinkHealth

/-- `kFailuresToTrip`. -/
def failuresToTrip : Nat := 3

/-- `kMinSpan`, 10 s. -/
def minSpan : Int := 10000000000

/-- `kMaxGap`, 60 s. -/
def maxGap : Int := 60000000000

/-- `LinkHealth::OnAttempt`. -/
def onAttempt (health : LinkHealth) (attempt : LinkAttempt) : LinkHealth × ConnectionReport :=
  if attempt.curlCode = 0 then
    if attempt.httpCode ≥ 500 then (health, .none)
    else
      ({ health with failures := 0 },
        if attempt.authenticated ∧ attempt.httpCode ≥ 200 ∧ attempt.httpCode < 300 then .connected
        else .none)
  else if !isConnectLevelFailure attempt.curlCode attempt.connectNeverCompleted then (health, .none)
  else
    let failures :=
      if health.failures > 0 ∧ attempt.now - health.lastFailure > maxGap then 0
      else health.failures
    let firstFailure := if failures = 0 then attempt.now else health.firstFailure
    let failures := failures + 1
    ({ failures, firstFailure, lastFailure := attempt.now },
      if failures ≥ failuresToTrip ∧ attempt.now - firstFailure ≥ minSpan then .unreachable
      else .none)

/-- The state after the attempts, from the initial one. -/
def after (attempts : List LinkAttempt) : LinkHealth :=
  attempts.foldl (fun health attempt => (health.onAttempt attempt).1) {}

/-! ## the streak of connect-level failures -/

/-- The times, newest first, up to the first gap longer than `kMaxGap`. -/
def withinGap : List Int → List Int
  | [] => []
  | [time] => [time]
  | time :: earlier :: rest =>
      if time - earlier > maxGap then [time] else time :: withinGap (earlier :: rest)

/-- The times of the connect-level failures since the last answer with a status
below 500, newest first. -/
def failuresSinceAnswer (attempts : List LinkAttempt) : List Int :=
  ((attempts.reverse.takeWhile fun a => !a.answered).filter (·.connectFailed)).map (·.now)

/-- The streak the history ends in: the times of its failures, newest first. -/
def streak (attempts : List LinkAttempt) : List Int :=
  withinGap (failuresSinceAnswer attempts)

/-- The report that a streak calls for. -/
def Tripped (times : List Int) : Prop :=
  ∃ newest oldest, times.head? = some newest ∧ times.getLast? = some oldest ∧
    failuresToTrip ≤ times.length ∧ minSpan ≤ newest - oldest

theorem failuresSinceAnswer_concat (attempts : List LinkAttempt) (attempt : LinkAttempt) :
    failuresSinceAnswer (attempts ++ [attempt]) =
      if attempt.answered then []
      else if attempt.connectFailed then attempt.now :: failuresSinceAnswer attempts
      else failuresSinceAnswer attempts := by
  cases hanswered : attempt.answered <;> cases hfailed : attempt.connectFailed <;>
    simp [failuresSinceAnswer, hanswered, hfailed]

theorem withinGap_cons (time : Int) (times : List Int) :
    withinGap (time :: times) =
      match times with
      | [] => [time]
      | earlier :: _ => if time - earlier > maxGap then [time] else time :: withinGap times := by
  cases times <;> rfl

@[simp] theorem head?_withinGap (times : List Int) : (withinGap times).head? = times.head? := by
  match times with
  | [] => rfl
  | [_] => rfl
  | time :: earlier :: rest =>
      simp only [withinGap]
      split <;> rfl

/-- The state holds the streak of the history: its length, and its oldest and
newest times. -/
structure Holds (attempts : List LinkAttempt) (health : LinkHealth) : Prop where
  length_eq : (streak attempts).length = health.failures
  newest_eq : ∀ time, (failuresSinceAnswer attempts).head? = some time → health.lastFailure = time
  oldest_eq : ∀ time, (streak attempts).getLast? = some time → health.firstFailure = time

/-- An attempt that is neither an answer below 500 nor a connect-level failure
changes nothing and reports nothing. -/
theorem onAttempt_ignored {health : LinkHealth} {attempt : LinkAttempt}
    (hanswered : attempt.answered = false) (hfailed : attempt.connectFailed = false) :
    health.onAttempt attempt = (health, .none) := by
  by_cases hcode : attempt.curlCode = 0
  · have hhttp : attempt.httpCode ≥ 500 := by
      simpa [LinkAttempt.answered, hcode] using hanswered
    simp [onAttempt, hcode, hhttp]
  · have hlevel : isConnectLevelFailure attempt.curlCode attempt.connectNeverCompleted = false := by
      simpa [LinkAttempt.connectFailed, hcode] using hfailed
    simp [onAttempt, hcode, hlevel]

theorem onAttempt_answered {health : LinkHealth} {attempt : LinkAttempt}
    (hanswered : attempt.answered = true) :
    (health.onAttempt attempt).1 = { health with failures := 0 } ∧
      (health.onAttempt attempt).2 ≠ .unreachable := by
  obtain ⟨hcode, hhttp⟩ : attempt.curlCode = 0 ∧ ¬ attempt.httpCode ≥ 500 := by
    simpa [LinkAttempt.answered] using hanswered
  unfold onAttempt
  rw [if_pos hcode, if_neg hhttp]
  refine ⟨rfl, ?_⟩
  split <;> simp

/-- A connect-level failure: the state after it, and when it is reported. -/
theorem onAttempt_failed (health : LinkHealth) {attempt : LinkAttempt}
    (hfailed : attempt.connectFailed = true) :
    ∃ failures firstFailure,
      (failures = health.failures + 1 ∧ 0 < health.failures ∧
          attempt.now - health.lastFailure ≤ maxGap ∧ firstFailure = health.firstFailure ∨
        failures = 1 ∧ (health.failures = 0 ∨ attempt.now - health.lastFailure > maxGap) ∧
          firstFailure = attempt.now) ∧
      health.onAttempt attempt = ({ failures, firstFailure, lastFailure := attempt.now },
        if failures ≥ failuresToTrip ∧ attempt.now - firstFailure ≥ minSpan then .unreachable
        else .none) := by
  obtain ⟨hcode, hlevel⟩ : attempt.curlCode ≠ 0 ∧
      isConnectLevelFailure attempt.curlCode attempt.connectNeverCompleted = true := by
    simpa [LinkAttempt.connectFailed] using hfailed
  by_cases hbroken : health.failures > 0 ∧ attempt.now - health.lastFailure > maxGap
  · refine ⟨1, attempt.now, .inr ⟨rfl, .inr hbroken.2, rfl⟩, ?_⟩
    simp [onAttempt, hcode, hlevel, hbroken]
  · by_cases hfirst : health.failures = 0
    · refine ⟨1, attempt.now, .inr ⟨rfl, .inl hfirst, rfl⟩, ?_⟩
      simp [onAttempt, hcode, hlevel, hfirst]
    · refine ⟨health.failures + 1, health.firstFailure, .inl ⟨rfl, by omega, by omega, rfl⟩, ?_⟩
      simp only [onAttempt, hcode, hlevel, if_neg hbroken, if_neg hfirst]
      rfl

theorem Holds.initial : Holds [] {} := by
  constructor <;> simp [streak, failuresSinceAnswer, withinGap]

/-- The streak after one more connect-level failure. -/
theorem Holds.failed {attempts : List LinkAttempt} {health : LinkHealth} {attempt : LinkAttempt}
    (h : Holds attempts health) (hanswered : attempt.answered = false)
    (hfailed : attempt.connectFailed = true) :
    Holds (attempts ++ [attempt]) (health.onAttempt attempt).1 := by
  have hsince : failuresSinceAnswer (attempts ++ [attempt]) =
      attempt.now :: failuresSinceAnswer attempts := by
    rw [failuresSinceAnswer_concat]
    simp [hanswered, hfailed]
  have hlength := h.length_eq
  have hnewest := h.newest_eq
  have holdest := h.oldest_eq
  obtain ⟨failures, firstFailure, hcase, hstep⟩ := onAttempt_failed health hfailed
  rw [hstep]
  cases htimes : failuresSinceAnswer attempts with
  | nil =>
      have hzero : health.failures = 0 := by
        rw [← hlength, streak, htimes]
        rfl
      have hstreak : streak (attempts ++ [attempt]) = [attempt.now] := by
        rw [streak, hsince, htimes]
        rfl
      obtain ⟨hone, hfirst⟩ : failures = 1 ∧ firstFailure = attempt.now := by
        rcases hcase with ⟨-, hpos, -⟩ | ⟨hone, -, hfirst⟩
        · omega
        · exact ⟨hone, hfirst⟩
      constructor
      · simp [hstreak, hone]
      · simp [hsince]
      · simp [hstreak, hfirst]
  | cons earlier rest =>
      have hlast : health.lastFailure = earlier := hnewest earlier (by rw [htimes]; rfl)
      have hpos : 0 < health.failures := by
        rw [← hlength, List.length_pos_iff, ← List.isSome_head?, streak, head?_withinGap, htimes]
        rfl
      by_cases hgap : attempt.now - earlier > maxGap
      · have hstreak : streak (attempts ++ [attempt]) = [attempt.now] := by
          rw [streak, hsince, withinGap_cons, htimes]
          simp [hgap]
        obtain ⟨hone, hfirst⟩ : failures = 1 ∧ firstFailure = attempt.now := by
          rcases hcase with ⟨-, -, hwithin, -⟩ | ⟨hone, -, hfirst⟩
          · omega
          · exact ⟨hone, hfirst⟩
        constructor
        · simp [hstreak, hone]
        · simp [hsince]
        · simp [hstreak, hfirst]
      · have hstreak : streak (attempts ++ [attempt]) = attempt.now :: streak attempts := by
          rw [streak, hsince, withinGap_cons, streak, htimes]
          simp [hgap]
        obtain ⟨hmore, hfirst⟩ : failures = health.failures + 1 ∧
            firstFailure = health.firstFailure := by
          rcases hcase with ⟨hmore, -, -, hfirst⟩ | ⟨-, hbroken, -⟩
          · exact ⟨hmore, hfirst⟩
          · omega
        have hne : streak attempts ≠ [] := by
          rw [← List.length_pos_iff, hlength]
          exact hpos
        constructor
        · simp [hstreak, hmore, hlength]
        · simp [hsince]
        · intro time htime
          rw [hstreak, List.getLast?_cons_of_ne_nil hne] at htime
          simp only [hfirst]
          exact holdest time htime

theorem Holds.next {attempts : List LinkAttempt} {health : LinkHealth} (h : Holds attempts health)
    (attempt : LinkAttempt) : Holds (attempts ++ [attempt]) (health.onAttempt attempt).1 := by
  cases hanswered : attempt.answered with
  | true =>
      have hsince : failuresSinceAnswer (attempts ++ [attempt]) = [] := by
        rw [failuresSinceAnswer_concat]
        simp [hanswered]
      have hstreak : streak (attempts ++ [attempt]) = [] := by
        rw [streak, hsince]
        rfl
      rw [(onAttempt_answered hanswered).1]
      constructor <;> simp [hstreak, hsince]
  | false =>
      cases hfailed : attempt.connectFailed with
      | true => exact h.failed hanswered hfailed
      | false =>
          have hsince : failuresSinceAnswer (attempts ++ [attempt]) =
              failuresSinceAnswer attempts := by
            rw [failuresSinceAnswer_concat]
            simp [hanswered, hfailed]
          have hstreak : streak (attempts ++ [attempt]) = streak attempts := by
            rw [streak, hsince, streak]
          rw [onAttempt_ignored hanswered hfailed]
          constructor
          · rw [hstreak]
            exact h.length_eq
          · rw [hsince]
            exact h.newest_eq
          · rw [hstreak]
            exact h.oldest_eq

theorem holds_after (attempts : List LinkAttempt) : Holds attempts (after attempts) :=
  Runs.foldl_history .initial (fun h => h.next _) attempts

theorem answered_eq_false_of_connectFailed {attempt : LinkAttempt}
    (hfailed : attempt.connectFailed = true) : attempt.answered = false := by
  grind [LinkAttempt.connectFailed, LinkAttempt.answered]

/-- A connect-level failure is reported exactly when its streak is long enough
and spans enough time. -/
theorem onAttempt_eq_unreachable_iff (attempts : List LinkAttempt) (attempt : LinkAttempt) :
    ((after attempts).onAttempt attempt).2 = .unreachable ↔
      attempt.connectFailed = true ∧ Tripped (streak (attempts ++ [attempt])) := by
  cases hfailed : attempt.connectFailed with
  | false =>
      have hsilent : ((after attempts).onAttempt attempt).2 ≠ .unreachable := by
        cases hanswered : attempt.answered with
        | true => exact (onAttempt_answered hanswered).2
        | false =>
            rw [onAttempt_ignored hanswered hfailed]
            simp
      simp [hsilent]
  | true =>
      have hanswered := answered_eq_false_of_connectFailed hfailed
      have hholds := (holds_after attempts).next attempt
      have hhead : (streak (attempts ++ [attempt])).head? = some attempt.now := by
        rw [streak, head?_withinGap, failuresSinceAnswer_concat]
        simp [hanswered, hfailed]
      obtain ⟨failures, firstFailure, -, hstep⟩ :=
        onAttempt_failed (after attempts) hfailed
      rw [hstep] at hholds ⊢
      have hlength := hholds.length_eq
      have holdest := hholds.oldest_eq
      simp only at hlength holdest
      have hiff : Tripped (streak (attempts ++ [attempt])) ↔
          failures ≥ failuresToTrip ∧ attempt.now - firstFailure ≥ minSpan := by
        constructor
        · rintro ⟨newest, oldest, hnewest, hlast, hcount, hspan⟩
          obtain rfl : attempt.now = newest := by
            simpa [hhead] using hnewest
          have hfirst := holdest oldest hlast
          omega
        · rintro ⟨hcount, hspan⟩
          cases hlast : (streak (attempts ++ [attempt])).getLast? with
          | none =>
              rw [List.getLast?_eq_none_iff.mp hlast] at hhead
              simp at hhead
          | some oldest =>
              have hfirst := holdest oldest hlast
              exact ⟨attempt.now, oldest, hhead, hlast, by omega, by omega⟩
      rw [hiff]
      simp

end LinkHealth

/-! ## ConnectionReportLatch -/

/-- `ConnectionReportLatch`. -/
structure ConnectionReportLatch where
  observed : ConnectionReport := .none
  delivered : ConnectionReport := .none
  resendRequested : Bool := false
deriving DecidableEq, Repr

/-- A call on the latch. -/
inductive LatchCall where
  | observe (report : ConnectionReport)
  | requestResend
  | takePending (connectedReady : Bool)
deriving DecidableEq, Repr

namespace ConnectionReportLatch

/-- `Observe`: the latch after it, and whether a delivery is worth
scheduling. -/
def observe (latch : ConnectionReportLatch) (report : ConnectionReport) :
    ConnectionReportLatch × Bool :=
  if report = .none then (latch, false)
  else ({ latch with observed := report }, report ≠ latch.observed)

/-- `RequestResend`. -/
def requestResend (latch : ConnectionReportLatch) : ConnectionReportLatch :=
  { latch with resendRequested := true }

/-- The observation as Kodi is to see it. -/
def target (latch : ConnectionReportLatch) : ConnectionReport :=
  if latch.observed = .unreachable ∧
      (latch.delivered = .connected ∨ latch.delivered = .disconnected) then .disconnected
  else latch.observed

/-- `TakePending`: the latch after it and, when there is one, the state to
deliver with whether it is handed out again. -/
def takePending (latch : ConnectionReportLatch) (connectedReady : Bool) :
    ConnectionReportLatch × Option (ConnectionReport × Bool) :=
  if latch.observed = .none then (latch, none)
  else
    let again := latch.target = latch.delivered
    if again ∧ ¬ latch.resendRequested then (latch, none)
    else if latch.target = .connected ∧ ¬ connectedReady then (latch, none)
    else
      ({ latch with delivered := latch.target, resendRequested := false },
        some (latch.target, again))

/-- A call on the latch, and the state it hands to Kodi. -/
def call (latch : ConnectionReportLatch) : LatchCall →
    ConnectionReportLatch × Option ConnectionReport
  | .observe report => ((latch.observe report).1, none)
  | .requestResend => (latch.requestResend, none)
  | .takePending connectedReady =>
      ((latch.takePending connectedReady).1, (latch.takePending connectedReady).2.map (·.1))

/-- The latch and the states handed to Kodi, in order, after the calls. -/
def after (calls : List LatchCall) : ConnectionReportLatch × List ConnectionReport :=
  calls.foldl (fun st call => ((st.1.call call).1, st.2 ++ (st.1.call call).2.toList)) ({}, [])

/-- The states handed to Kodi. -/
def deliveries (calls : List LatchCall) : List ConnectionReport := (after calls).2

/-- The newest observation that says something. -/
def latest (calls : List LatchCall) : ConnectionReport :=
  calls.foldl (fun report call =>
    match call with
    | .observe next => if next = .none then report else next
    | _ => report) .none

/-- A resend was requested since the last delivery. -/
def ResendSince (calls : List LatchCall) : Prop :=
  ∃ earlier later, calls = earlier ++ .requestResend :: later ∧
    deliveries earlier = deliveries calls

/-- What the latch holds of the calls so far. -/
structure Holds (calls : List LatchCall) (latch : ConnectionReportLatch)
    (delivered : List ConnectionReport) : Prop where
  observed_eq : latch.observed = latest calls
  delivered_eq : latch.delivered = delivered.getLast?.getD .none
  none_not_mem : .none ∉ delivered
  resend : latch.resendRequested = true → ResendSince calls
  connected_mem : .disconnected ∈ delivered → .connected ∈ delivered

theorem after_concat (calls : List LatchCall) (call : LatchCall) :
    after (calls ++ [call]) = (((after calls).1.call call).1,
      deliveries calls ++ ((after calls).1.call call).2.toList) := by
  simp [after, deliveries]

theorem deliveries_concat (calls : List LatchCall) (call : LatchCall) :
    deliveries (calls ++ [call]) =
      deliveries calls ++ ((after calls).1.call call).2.toList := by
  rw [deliveries, after_concat]

/-- Everything a `TakePending` that delivers has found. -/
theorem takePending_eq_some {latch latch' : ConnectionReportLatch} {connectedReady again : Bool}
    {report : ConnectionReport}
    (h : latch.takePending connectedReady = (latch', some (report, again))) :
    latch.observed ≠ .none ∧ report = latch.target ∧
      (report = latch.delivered → latch.resendRequested = true) ∧
      (report = .connected → connectedReady = true) ∧
      latch' = { latch with delivered := report, resendRequested := false } := by
  unfold takePending at h
  by_cases hnone : latch.observed = .none
  · simp [hnone] at h
  · by_cases hagain : latch.target = latch.delivered ∧ ¬ latch.resendRequested
    · simp [hnone, hagain] at h
    · by_cases hready : latch.target = .connected ∧ ¬ connectedReady
      · simp [hnone, hready] at h
      · simp only [if_neg hnone, if_neg hagain, if_neg hready, Prod.mk.injEq, Option.some.injEq] at h
        obtain ⟨rfl, rfl, -⟩ := h
        refine ⟨hnone, rfl, ?_, ?_, rfl⟩
        · intro hsame
          exact Classical.byContradiction fun hresend => hagain ⟨hsame, hresend⟩
        · intro hconnected
          exact Classical.byContradiction fun hnotReady => hready ⟨hconnected, hnotReady⟩

/-- A `TakePending` that delivers nothing changes nothing. -/
theorem takePending_eq_none {latch : ConnectionReportLatch} {connectedReady : Bool}
    (h : (latch.takePending connectedReady).2 = none) :
    (latch.takePending connectedReady).1 = latch := by
  unfold takePending at h ⊢
  by_cases hnone : latch.observed = .none
  · simp [hnone]
  · by_cases hagain : latch.target = latch.delivered ∧ ¬ latch.resendRequested
    · simp [hnone, hagain]
    · by_cases hready : latch.target = .connected ∧ ¬ connectedReady
      · simp [hnone, hready]
      · simp only [if_neg hnone, if_neg hagain, if_neg hready] at h
        contradiction

theorem ResendSince.concat {calls : List LatchCall} {call : LatchCall} (h : ResendSince calls)
    (hsame : deliveries (calls ++ [call]) = deliveries calls) : ResendSince (calls ++ [call]) := by
  obtain ⟨earlier, later, hcalls, hdeliveries⟩ := h
  refine ⟨earlier, later ++ [call], ?_, ?_⟩
  · rw [hcalls]
    simp
  · rw [hsame, hdeliveries]

/-- The unreachable server is shown as disconnected after a connected link. -/
theorem target_eq_disconnected_iff {latch : ConnectionReportLatch}
    (h : latch.observed ≠ .disconnected) :
    latch.target = .disconnected ↔ latch.observed = .unreachable ∧
      (latch.delivered = .connected ∨ latch.delivered = .disconnected) := by
  unfold target
  split
  · simp_all
  · simp_all

theorem Holds.deliver {calls : List LatchCall} {latch latch' : ConnectionReportLatch}
    {delivered : List ConnectionReport} {connectedReady again : Bool} {report : ConnectionReport}
    (h : Holds calls latch delivered) (hobserved : latch.observed ≠ .disconnected)
    (htaken : latch.takePending connectedReady = (latch', some (report, again))) :
    Holds (calls ++ [.takePending connectedReady]) latch' (delivered ++ [report]) := by
  obtain ⟨hsome, rfl, -, -, rfl⟩ := takePending_eq_some htaken
  constructor
  · simp [h.observed_eq, latest]
  · simp
  · have hne : .none ≠ latch.target := by
      unfold target
      split
      · simp
      · exact hsome.symm
    simp [h.none_not_mem, hne]
  · simp
  · intro hmem
    have hconnected : .connected ∈ delivered := by
      rcases List.mem_append.mp hmem with hmem | hmem
      · exact h.connected_mem hmem
      · have hlast : latch.delivered = .connected ∨ latch.delivered = .disconnected :=
          ((target_eq_disconnected_iff hobserved).mp (List.mem_singleton.mp hmem).symm).2
        rw [h.delivered_eq] at hlast
        cases hget : delivered.getLast? with
        | none => simp [hget] at hlast
        | some last =>
            have hlastMem := List.mem_of_getLast? hget
            rcases hlast with hlast | hlast
            · simp only [hget, Option.getD_some] at hlast
              rwa [hlast] at hlastMem
            · simp only [hget, Option.getD_some] at hlast
              rw [hlast] at hlastMem
              exact h.connected_mem hlastMem
    exact List.mem_append_left _ hconnected

theorem latest_concat (calls : List LatchCall) (call : LatchCall) :
    latest (calls ++ [call]) =
      match call with
      | .observe next => if next = .none then latest calls else next
      | _ => latest calls := by
  simp [latest]

/-- The newest observation is one of those made. -/
theorem latest_eq_none_or_mem (calls : List LatchCall) :
    latest calls = .none ∨ .observe (latest calls) ∈ calls := by
  refine Runs.foldl_history (I := fun calls report => report = .none ∨ .observe report ∈ calls)
    (.inl rfl) (fun {es report call} h => ?_) calls
  have hkept : report = .none ∨ .observe report ∈ es ++ [call] :=
    h.imp id (List.mem_append_left [call])
  cases call with
  | observe next =>
      by_cases hnone : next = .none
      · simpa [hnone] using hkept
      · simp [hnone]
  | requestResend => exact hkept
  | takePending _ => exact hkept

theorem latest_ne_disconnected {calls : List LatchCall} (h : .observe .disconnected ∉ calls) :
    latest calls ≠ .disconnected := by
  intro heq
  rcases latest_eq_none_or_mem calls with hnone | hmem
  · rw [hnone] at heq
    contradiction
  · rw [heq] at hmem
    exact h hmem

/-- A call that delivers nothing, given what it leaves in the latch. -/
theorem Holds.silent {calls : List LatchCall} {call : LatchCall}
    {latch latch' : ConnectionReportLatch} (h : Holds calls latch (deliveries calls))
    (hsilent : deliveries (calls ++ [call]) = deliveries calls)
    (hobserved : latch'.observed = latest (calls ++ [call]))
    (hdelivered : latch'.delivered = latch.delivered)
    (hresend : latch'.resendRequested = true → latch.resendRequested = true ∨
      call = .requestResend) :
    Holds (calls ++ [call]) latch' (deliveries (calls ++ [call])) := by
  rw [hsilent]
  refine ⟨hobserved, hdelivered.trans h.delivered_eq, h.none_not_mem, ?_, h.connected_mem⟩
  intro hrequested
  rcases hresend hrequested with hbefore | rfl
  · exact (h.resend hbefore).concat hsilent
  · exact ⟨calls, [], rfl, hsilent.symm⟩

theorem Holds.next {calls : List LatchCall} (h : Holds calls (after calls).1 (deliveries calls))
    (hreports : .observe .disconnected ∉ calls) (call : LatchCall) :
    Holds (calls ++ [call]) (after (calls ++ [call])).1 (deliveries (calls ++ [call])) := by
  have hsilent : ((after calls).1.call call).2 = none →
      deliveries (calls ++ [call]) = deliveries calls := by
    intro hnone
    rw [deliveries_concat, hnone]
    simp
  rw [after_concat]
  cases call with
  | observe report =>
      refine h.silent (hsilent rfl) ?_ ?_ ?_ <;>
        simp only [latest_concat, ConnectionReportLatch.call, observe]
      · split
        · exact h.observed_eq
        · rfl
      · split <;> rfl
      · split <;> exact .inl
  | requestResend =>
      refine h.silent (hsilent rfl) ?_ rfl (fun _ => .inr rfl)
      rw [latest_concat]
      exact h.observed_eq
  | takePending connectedReady =>
      cases htaken : ((after calls).1.takePending connectedReady).2 with
      | none =>
          have hsame := takePending_eq_none htaken
          refine h.silent (hsilent (by simp [ConnectionReportLatch.call, htaken])) ?_ ?_ ?_ <;>
            simp only [latest_concat, ConnectionReportLatch.call, hsame]
          · exact h.observed_eq
          · exact .inl
      | some taken =>
          have hobserved : (after calls).1.observed ≠ .disconnected := by
            rw [h.observed_eq]
            exact latest_ne_disconnected hreports
          have hpair : (after calls).1.takePending connectedReady =
              (((after calls).1.takePending connectedReady).1, some (taken.1, taken.2)) :=
            Prod.ext rfl htaken
          have hdelivered := h.deliver hobserved hpair
          simpa [deliveries_concat, ConnectionReportLatch.call, htaken] using hdelivered

theorem holds_after {calls : List LatchCall} (hreports : .observe .disconnected ∉ calls) :
    Holds calls (after calls).1 (deliveries calls) := by
  induction calls using List.reverseRecOn with
  | nil =>
      constructor <;> simp [after, deliveries, latest]
  | append_singleton calls call ih =>
      have hbefore : .observe .disconnected ∉ calls := by
        intro hmem
        exact hreports (List.mem_append_left _ hmem)
      exact (ih hbefore).next hbefore call

/-- The last state handed to Kodi is the one the latch holds as delivered. -/
theorem Holds.getLast?_eq_some_iff {calls : List LatchCall} {latch : ConnectionReportLatch}
    {delivered : List ConnectionReport} (h : Holds calls latch delivered)
    (report : ConnectionReport) (hne : report ≠ .none) :
    delivered.getLast? = some report ↔ latch.delivered = report := by
  rw [h.delivered_eq]
  cases hlast : delivered.getLast? with
  | none => simpa using hne.symm
  | some last => simp

end ConnectionReportLatch

/-! ## whole runs -/

/-- The report of a failed login is never `kDisconnected`. -/
theorem reportForAuthFailure_ne_disconnected (httpStatus : Int) (callerHasShortBound : Bool) :
    reportForAuthFailure httpStatus callerHasShortBound ≠ .disconnected := by
  unfold reportForAuthFailure
  grind

theorem LinkHealth.onAttempt_ne_disconnected (health : LinkHealth) (attempt : LinkAttempt) :
    (health.onAttempt attempt).2 ≠ .disconnected := by
  unfold LinkHealth.onAttempt
  grind

open ConnectionReportLatch in
/-- What a delivery to Kodi can be, in every run of the latch; and when
`LinkHealth` reports the server unreachable, in every run of attempts. -/
theorem connection_reporting :
    (∀ (calls : List LatchCall) (connectedReady : Bool) (report : ConnectionReport),
      .observe .disconnected ∉ calls →
      ((after calls).1.call (.takePending connectedReady)).2 = some report →
      ((deliveries calls).getLast? = some report → ResendSince calls) ∧
      (report = .disconnected → .connected ∈ deliveries calls) ∧
      (report = .unreachable → (deliveries calls).getLast? ≠ some .connected ∧
        (deliveries calls).getLast? ≠ some .disconnected) ∧
      (report = .connected → connectedReady = true) ∧
      report = (if latest calls = .unreachable ∧
          ((deliveries calls).getLast? = some .connected ∨
            (deliveries calls).getLast? = some .disconnected) then .disconnected
        else latest calls)) ∧
    ∀ (attempts : List LinkAttempt) (attempt : LinkAttempt),
      ((LinkHealth.after attempts).onAttempt attempt).2 = .unreachable ↔
        attempt.connectFailed = true ∧ LinkHealth.Tripped (LinkHealth.streak (attempts ++ [attempt])) := by
  refine ⟨?_, LinkHealth.onAttempt_eq_unreachable_iff⟩
  intro calls connectedReady report hreports htaken
  have hholds := holds_after hreports
  cases hcall : (after calls).1.takePending connectedReady with
  | mk latch' taken =>
      obtain ⟨⟨_, again⟩, htaken', rfl⟩ : ∃ pair : ConnectionReport × Bool,
          taken = some pair ∧ pair.1 = report := by
        simpa [ConnectionReportLatch.call, hcall] using htaken
      rw [htaken'] at hcall
      obtain ⟨hsome, rfl, hagain, hready, -⟩ := takePending_eq_some hcall
      have hobserved : (after calls).1.observed ≠ .disconnected := by
        rw [hholds.observed_eq]
        exact latest_ne_disconnected hreports
      have hdisconnected := target_eq_disconnected_iff hobserved
      have hconnectedLast := hholds.getLast?_eq_some_iff .connected (by decide)
      have hdisconnectedLast := hholds.getLast?_eq_some_iff .disconnected (by decide)
      have htarget : (after calls).1.target ≠ .none := by
        unfold target
        split
        · decide
        · exact hsome
      refine ⟨?_, ?_, ?_, hready, ?_⟩
      · intro hlast
        exact hholds.resend (hagain ((hholds.getLast?_eq_some_iff _ htarget).mp hlast).symm)
      · intro hshown
        rcases (hdisconnected.mp hshown).2 with hlast | hlast
        · exact List.mem_of_getLast? (hconnectedLast.mpr hlast)
        · exact hholds.connected_mem (List.mem_of_getLast? (hdisconnectedLast.mpr hlast))
      · intro hshown
        rw [Ne, Ne, hconnectedLast, hdisconnectedLast]
        have hnot : ¬ ((after calls).1.delivered = .connected ∨
            (after calls).1.delivered = .disconnected) := by
          intro hlast
          simp only [target] at hshown
          split at hshown
          · contradiction
          · next hother => exact hother ⟨hshown, hlast⟩
        exact not_or.mp hnot
      · simp only [hconnectedLast, hdisconnectedLast, ← hholds.observed_eq]
        rfl

/-- A link that goes down after it was reported up. -/
theorem connection_reporting_lost :
    let calls : List LatchCall :=
      [.observe .connected, .takePending true, .observe .unreachable]
    ((ConnectionReportLatch.after calls).1.call (.takePending false)).2 = some .disconnected ∧
      .connected ∈ ConnectionReportLatch.deliveries calls := by
  intro calls
  have htaken : ((ConnectionReportLatch.after calls).1.call (.takePending false)).2 =
      some .disconnected := by decide
  exact ⟨htaken, (connection_reporting.1 calls false .disconnected (by decide) htaken).2.1 rfl⟩

end DispatcharrPvr
