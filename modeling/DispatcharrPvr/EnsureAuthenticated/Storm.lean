import DispatcharrPvr.EnsureAuthenticated

/-!
# EnsureAuthenticated.Storm

How often a client refreshes and logs in.  Everything past the gate happens
under the flow mutex, so no two requests overlap, and what the gate has checked
still holds when a request goes out: each credential rejection lies its backoff
in the past, each transient failure its cooldown (`Clear`).  Which number a
rejection has is counted from how the earlier refreshes and logins ended.

A token that replaces a rejected one is called good for four minutes, so a
second renewal for the same rejected token comes later than that or behind an
invalidation of a newer token (`Spent`).
-/

namespace DispatcharrPvr

open Runs

/-! ## the phases -/

namespace AuthPhase

variable {Token : Type}

/-- The call of a thread that is past the gate. -/
def pastGate : AuthPhase Token → Option (AuthCall Token)
  | .refreshStart call | .refreshSent call | .refreshAnswered call _ | .loginStart call
  | .loginSent call | .loginAnswered call _ => some call
  | _ => none

/-- The call of a thread that may yet renew the token. -/
def unrenewed : AuthPhase Token → Option (AuthCall Token)
  | .refreshStart call | .refreshSent call | .loginStart call | .loginSent call => some call
  | .refreshAnswered call result => if result.ok then none else some call
  | _ => none

/-- The thread has the flow mutex. -/
def holdsMutex : AuthPhase Token → Bool
  | .locked _ => true
  | phase => phase.pastGate.isSome

/-- The request the thread is at, or was rejected with. -/
def request : AuthPhase Token → Option (RejectedRequest Token)
  | .idle => none
  | .requesting request _ | .rejected request _ => some request
  | .entered call | .waiting call | .locked call | .refreshStart call | .refreshSent call
  | .refreshAnswered call _ | .loginStart call | .loginSent call | .loginAnswered call _
  | .returned call _ => call.cause

theorem pastGate_of_unrenewed {phase : AuthPhase Token} {call : AuthCall Token}
    (h : phase.unrenewed = some call) : phase.pastGate = some call := by
  cases phase with
  | refreshAnswered call' result =>
      simp only [unrenewed, Option.ite_none_left_eq_some, Option.some.injEq] at h
      simp [pastGate, h.2]
  | _ => simp_all [unrenewed, pastGate]

theorem holdsMutex_of_pastGate {phase : AuthPhase Token} {call : AuthCall Token}
    (h : phase.pastGate = some call) : phase.holdsMutex = true := by
  cases phase <;> simp_all [pastGate, holdsMutex]

end AuthPhase

/-! ## how refreshes and logins ended -/

namespace AuthOutcome

variable {Token : Type}

/-- A login that was refused for its credentials. -/
def isRejection (outcome : AuthOutcome Token) : Bool :=
  outcome.isLogin && !outcome.result.ok &&
    [400, 401, 403, 429].contains outcome.result.httpStatus

/-- A failure that says nothing of the credentials: a login that failed otherwise, a
refresh without an answer or with a server error. -/
def isTransient (outcome : AuthOutcome Token) : Bool :=
  !outcome.result.ok &&
    if outcome.isLogin then !([400, 401, 403, 429].contains outcome.result.httpStatus)
    else outcome.result.httpStatus == 0 ||
      (decide (500 ≤ outcome.result.httpStatus) && decide (outcome.result.httpStatus < 600))

/-- How many logins were refused for their credentials since the last success. -/
def rejectionsSince : List (AuthOutcome Token) → Nat
  | [] => 0
  | outcome :: older =>
      if outcome.result.ok then 0
      else rejectionsSince older + if outcome.isRejection then 1 else 0

/-- The times of the rejections, with their numbers. -/
def rejections : List (AuthOutcome Token) → List (Int × Nat)
  | [] => []
  | outcome :: older =>
      if outcome.isRejection then
        (outcome.time, rejectionsSince (outcome :: older)) :: rejections older
      else rejections older

/-- The times of the transient failures of full-length attempts. -/
def fullFailures (timeoutSeconds : Int) (outcomes : List (AuthOutcome Token)) : List Int :=
  (outcomes.filter fun outcome =>
    outcome.isTransient && !AuthClient.hasShortBound timeoutSeconds outcome.call).map (·.time)

/-- The times of those of short-bounded ones, since the last login. -/
def shortFailures (timeoutSeconds : Int) (outcomes : List (AuthOutcome Token)) : List Int :=
  ((outcomes.takeWhile fun outcome => !(outcome.isLogin && outcome.result.ok)).filter fun outcome =>
    outcome.isTransient && AuthClient.hasShortBound timeoutSeconds outcome.call).map (·.time)

variable {timeoutSeconds : Int} {outcome : AuthOutcome Token}
  {newer older outcomes : List (AuthOutcome Token)}

theorem rejectionsSince_of_failed (h : outcome.result.ok = false) :
    rejectionsSince (outcome :: older) =
      rejectionsSince older + if outcome.isRejection then 1 else 0 := by
  rw [rejectionsSince, h]
  rfl

theorem rejections_cons_of_not (h : outcome.isRejection = false) :
    rejections (outcome :: older) = rejections older := by
  rw [rejections, h]
  rfl

theorem fullFailures_cons_of_not (h : outcome.isTransient = false) :
    fullFailures timeoutSeconds (outcome :: older) = fullFailures timeoutSeconds older := by
  rw [fullFailures, List.filter_cons_of_neg (by simp [h]), fullFailures]

theorem shortFailures_cons_of_not (h : outcome.isTransient = false)
    (hfailed : outcome.result.ok = false) :
    shortFailures timeoutSeconds (outcome :: older) = shortFailures timeoutSeconds older := by
  rw [shortFailures, List.takeWhile_cons_of_pos (by simp [hfailed]),
    List.filter_cons_of_neg (by simp [h]), shortFailures]

/-- A full-length failure is the latest or an earlier one. -/
theorem mem_fullFailures_cons {f : Int}
    (h : f ∈ fullFailures timeoutSeconds (outcome :: older)) :
    (f = outcome.time ∧ AuthClient.hasShortBound timeoutSeconds outcome.call = false) ∨
      f ∈ fullFailures timeoutSeconds older := by
  obtain ⟨failure, hmem, rfl⟩ := List.mem_map.mp h
  obtain ⟨hmem, hfailure⟩ := List.mem_filter.mp hmem
  rcases List.mem_cons.mp hmem with rfl | hmem
  · exact .inl ⟨rfl, by simpa using (Bool.and_eq_true_iff.mp hfailure).2⟩
  · exact .inr (List.mem_map_of_mem (List.mem_filter.mpr ⟨hmem, hfailure⟩))

theorem mem_shortFailures_cons {f : Int}
    (h : f ∈ shortFailures timeoutSeconds (outcome :: older)) :
    f = outcome.time ∨ f ∈ shortFailures timeoutSeconds older := by
  obtain ⟨failure, hmem, rfl⟩ := List.mem_map.mp h
  obtain ⟨hmem, hfailure⟩ := List.mem_filter.mp hmem
  rw [List.takeWhile_cons] at hmem
  split at hmem
  · rcases List.mem_cons.mp hmem with rfl | hmem
    · exact .inl rfl
    · exact .inr (List.mem_map_of_mem (List.mem_filter.mpr ⟨hmem, hfailure⟩))
  · contradiction

theorem mem_rejections (h : outcome.isRejection = true) :
    (outcome.time, rejectionsSince (outcome :: older)) ∈ rejections (newer ++ outcome :: older) := by
  induction newer with
  | nil =>
      rw [List.nil_append, rejections, if_pos h]
      exact List.mem_cons_self
  | cons first newer ih =>
      rw [List.cons_append, rejections]
      split
      · exact List.mem_cons_of_mem _ ih
      · exact ih

theorem mem_fullFailures (hmem : outcome ∈ outcomes) (h : outcome.isTransient = true)
    (hfull : AuthClient.hasShortBound timeoutSeconds outcome.call = false) :
    outcome.time ∈ fullFailures timeoutSeconds outcomes :=
  List.mem_map_of_mem (List.mem_filter.mpr ⟨hmem, by rw [h, hfull]; rfl⟩)

theorem mem_shortFailures (h : outcome.isTransient = true)
    (hshort : AuthClient.hasShortBound timeoutSeconds outcome.call = true)
    (hnewer : ∀ later ∈ newer, ¬ (later.isLogin = true ∧ later.result.ok = true)) :
    outcome.time ∈ shortFailures timeoutSeconds (newer ++ outcome :: older) := by
  have hfailed : outcome.result.ok = false := by
    rw [isTransient, Bool.and_eq_true, Bool.not_eq_true'] at h
    exact h.1
  refine List.mem_map_of_mem (List.mem_filter.mpr ⟨?_, by rw [h, hshort]; rfl⟩)
  rw [List.takeWhile_append_of_pos fun later hlater => by simpa [Bool.or_eq_true, imp_iff_not_or] using hnewer later hlater,
    List.takeWhile_cons_of_pos (by simp [hfailed])]
  exact List.mem_append_right _ List.mem_cons_self

end AuthOutcome

/-! ## the history -/

section History

variable {Token : Type}

/-- Each renewal for a rejection of `token` lies a token's lifetime before `now`,
or behind it a newer token was invalidated. -/
def Spent (token : Option Token) (now : Int) (history : List (AuthRecord Token)) : Prop :=
  ∀ newer request time older, history = newer ++ .renewed (some request) time :: older →
    request.usedToken = token → time + accessTokenLifetime ≤ now ∨
      ∃ rejectedToken, .invalidated rejectedToken ∈ newer ∧ rejectedToken ≠ some token

/-- Of two renewals for rejections of one token, the later comes a token's
lifetime after the earlier, or a newer token was invalidated between them. -/
def RenewalsApart (history : List (AuthRecord Token)) : Prop :=
  ∀ newer request time older, history = newer ++ .renewed (some request) time :: older →
    Spent request.usedToken time older

theorem Spent.mono {token : Option Token} {now later : Int} {history : List (AuthRecord Token)}
    (h : Spent token now history) (hle : now ≤ later) : Spent token later history :=
  fun newer request time older heq htoken =>
    (h newer request time older heq htoken).imp_left fun hpast => Int.le_trans hpast hle

theorem Spent.invalidated {token : Option Token} {now : Int} {history : List (AuthRecord Token)}
    (h : Spent token now history) (rejectedToken : Option (Option Token)) :
    Spent token now (.invalidated rejectedToken :: history) := by
  intro newer request time older heq htoken
  cases newer with
  | nil => simp at heq
  | cons record newer =>
      obtain ⟨-, heq⟩ := List.cons.inj heq
      refine (h newer request time older heq htoken).imp_right ?_
      rintro ⟨rejected, hmem, hne⟩
      exact ⟨rejected, List.mem_cons_of_mem _ hmem, hne⟩

theorem RenewalsApart.invalidated {history : List (AuthRecord Token)} (h : RenewalsApart history)
    (rejectedToken : Option (Option Token)) :
    RenewalsApart (.invalidated rejectedToken :: history) := by
  intro newer request time older heq
  cases newer with
  | nil => simp at heq
  | cons record newer => exact h newer request time older (List.cons.inj heq).2

theorem RenewalsApart.renewed {history : List (AuthRecord Token)} (h : RenewalsApart history)
    {cause : Option (RejectedRequest Token)} {time : Int}
    (hspent : ∀ request, cause = some request → Spent request.usedToken time history) :
    RenewalsApart (.renewed cause time :: history) := by
  intro newer request time' older heq
  cases newer with
  | nil =>
      obtain ⟨hhead, rfl⟩ := List.cons.inj heq
      obtain ⟨rfl, rfl⟩ := AuthRecord.renewed.inj hhead
      exact hspent request rfl
  | cons record newer => exact h newer request time' older (List.cons.inj heq).2

end History

namespace AuthClient

variable {Thread Token : Type} {timeoutSeconds : Int} {s s' : AuthClient Thread Token}

/-- What the token in hand is, given the history. -/
structure TokenInv (s : AuthClient Thread Token) : Prop where
  issued : ∀ token, s.accessToken = some token → token ∈ s.issued
  past : ∀ cause time, .renewed cause time ∈ s.history → time ≤ s.now
  rejectedIssued : ∀ request time, .renewed (some request) time ∈ s.history →
    ∀ token, request.usedToken = some token → token ∈ s.issued
  /-- A renewal that no invalidation followed is still called good. -/
  good : ∀ newer cause time older, s.history = newer ++ .renewed cause time :: older →
    (∀ rejectedToken, .invalidated rejectedToken ∉ newer) →
      s.accessToken.isSome = true ∧ time + accessTokenLifetime ≤ s.accessTokenExpiry
  /-- Behind a renewal the rejected token is not in hand again. -/
  replaced : ∀ request time, .renewed (some request) time ∈ s.history →
    s.accessToken ≠ request.usedToken
  /-- Nor does it invalidate anything. -/
  byOthers : ∀ newer request time older rejectedToken,
    s.history = newer ++ .renewed (some request) time :: older →
      .invalidated rejectedToken ∈ newer → rejectedToken ≠ some request.usedToken

/-- Nothing holds a call back any more. -/
structure Clear (timeoutSeconds : Int) (s : AuthClient Thread Token) (callerHasShortBound : Bool) :
    Prop where
  rejections : ∀ r ∈ AuthOutcome.rejections s.outcomes,
    r.1 + seconds (computeLoginBackoffSeconds r.2) ≤ s.now
  fullFailures : ∀ f ∈ AuthOutcome.fullFailures timeoutSeconds s.outcomes,
    f + seconds kTransientLoginRetrySeconds ≤ s.now
  shortFailures : callerHasShortBound = true →
    ∀ f ∈ AuthOutcome.shortFailures timeoutSeconds s.outcomes,
      f + seconds kTransientLoginRetrySeconds ≤ s.now

/-- What holds of a thread by its phase. -/
structure PhaseSound (timeoutSeconds : Int) (s : AuthClient Thread Token) (t : Thread)
    (phase : AuthPhase Token) : Prop where
  mutex : phase.holdsMutex = true → s.authFlowMutex = some t
  issued : ∀ request, phase.request = some request →
    ∀ token, request.usedToken = some token → token ∈ s.issued
  clear : ∀ call, phase.pastGate = some call →
    s.Clear timeoutSeconds (hasShortBound timeoutSeconds call)
  spent : ∀ call, phase.unrenewed = some call →
    ∀ request, call.cause = some request → Spent request.usedToken s.now s.history

/-- The failures so far are over or stand in the gate. -/
structure FailuresHeld (timeoutSeconds : Int) (s : AuthClient Thread Token) : Prop where
  count : s.consecutiveLoginFailures = AuthOutcome.rejectionsSince s.outcomes
  rejections : ∀ r ∈ AuthOutcome.rejections s.outcomes,
    r.1 + seconds (computeLoginBackoffSeconds r.2) ≤ s.now ∨
      (0 < s.consecutiveLoginFailures ∧
        r.1 + seconds (computeLoginBackoffSeconds r.2) ≤ s.loginBackoffUntil)
  fullFailures : ∀ f ∈ AuthOutcome.fullFailures timeoutSeconds s.outcomes, f ≤ s.now ∧
    (f + seconds kTransientLoginRetrySeconds ≤ s.now ∨
      (0 < s.transientLoginFailedAt ∧ f ≤ s.transientLoginFailedAt ∧
        s.transientLoginArmedByShortAttempt = false))
  shortFailures : ∀ f ∈ AuthOutcome.shortFailures timeoutSeconds s.outcomes, f ≤ s.now ∧
    (f + seconds kTransientLoginRetrySeconds ≤ s.now ∨
      (0 < s.transientLoginFailedAt ∧ f ≤ s.transientLoginFailedAt))

/-- What holds in every state of a run. -/
structure Inv (timeoutSeconds : Int) (s : AuthClient Thread Token) : Prop where
  now_pos : 0 < s.now
  phases : ∀ t, s.PhaseSound timeoutSeconds t (s.phase t)
  token : s.TokenInv
  apart : RenewalsApart s.history
  failures : s.FailuresHeld timeoutSeconds

/-! ### the gate -/

/-- A call the gate lets on has nothing to wait for. -/
theorem Inv.clear_of_proceed (h : s.Inv timeoutSeconds) {callerHasShortBound : Bool}
    (hgate : s.authGate callerHasShortBound = .proceed) :
    s.Clear timeoutSeconds callerHasShortBound := by
  obtain ⟨-, hbackoff, hcooldown⟩ := decideAuthGate_eq_proceed_iff.mp hgate
  have hover : 0 < s.transientLoginFailedAt →
      (s.transientLoginArmedByShortAttempt = false ∨ callerHasShortBound = true) →
        s.transientLoginFailedAt + seconds kTransientLoginRetrySeconds ≤ s.now := by
    intro hset hblocks
    have hdue : isRetryDue s.transientLoginFailedAt s.now (seconds kTransientLoginRetrySeconds) =
        true := by
      simp only [isTransientCooldownBlocking, Bool.and_eq_false_iff, Bool.not_eq_false',
        Bool.or_eq_false_iff] at hcooldown
      rcases hcooldown with hdue | ⟨harmed, hfull⟩
      · exact hdue
      · simp_all
    rw [isRetryDue, if_neg (by omega), decide_eq_true_eq] at hdue
    omega
  refine ⟨fun r hr => ?_, fun f hf => ?_, fun hshort f hf => ?_⟩
  · rcases h.failures.rejections r hr with hpast | ⟨hpos, huntil⟩
    · exact hpast
    · simp only [Bool.and_eq_false_iff, decide_eq_false_iff_not] at hbackoff
      omega
  · rcases (h.failures.fullFailures f hf).2 with hpast | ⟨hset, hle, harmed⟩
    · exact hpast
    · have := hover hset (.inl harmed)
      omega
  · rcases (h.failures.shortFailures f hf).2 with hpast | ⟨hset, hle⟩
    · exact hpast
    · have := hover hset (.inr hshort)
      omega

/-- A call the gate lets on finds the last renewal used up. -/
theorem TokenInv.spent (h : s.TokenInv) (hstale : s.tokenStillValid = false)
    (token : Option Token) : Spent token s.now s.history := by
  intro newer request time older heq htoken
  by_cases hinvalidated : ∃ rejectedToken, .invalidated rejectedToken ∈ newer
  · obtain ⟨rejectedToken, hmem⟩ := hinvalidated
    exact .inr ⟨rejectedToken, hmem, htoken ▸ h.byOthers _ _ _ _ _ heq hmem⟩
  · obtain ⟨hsome, hexpiry⟩ := h.good newer _ time older heq fun r hr => hinvalidated ⟨r, hr⟩
    simp only [tokenStillValid, hsome, Bool.true_and, decide_eq_false_iff_not] at hstale
    exact .inl (by omega)

/-! ### the kinds of failures -/

theorem classifyRefreshTokenFailure_spec (httpStatus : Int) :
    (httpStatus == 0 || (decide (500 ≤ httpStatus) && decide (httpStatus < 600))) = true ↔
      classifyRefreshTokenFailure httpStatus = .transient := by
  unfold classifyRefreshTokenFailure
  simp only [Bool.or_eq_true, beq_iff_eq, Bool.and_eq_true, decide_eq_true_eq]
  split
  · simp only [reduceCtorEq, iff_false]
    omega
  · split
    · simp only [iff_true]
      omega
    · simp only [reduceCtorEq, iff_false]
      omega

theorem shouldCountTowardLoginBackoff_spec (httpStatus : Int) :
    [400, 401, 403, 429].contains httpStatus = true ↔
      shouldCountTowardLoginBackoff httpStatus = true := by
  simp [shouldCountTowardLoginBackoff, or_assoc]

/-! ### what a step leaves of the invariant -/

theorem Clear.later {b : Bool} (h : s.Clear timeoutSeconds b) (hnow : s.now ≤ s'.now)
    (houtcomes : s'.outcomes = s.outcomes) : s'.Clear timeoutSeconds b where
  rejections r hr := Int.le_trans (h.rejections r (houtcomes ▸ hr)) hnow
  fullFailures f hf := Int.le_trans (h.fullFailures f (houtcomes ▸ hf)) hnow
  shortFailures hb f hf := Int.le_trans (h.shortFailures hb f (houtcomes ▸ hf)) hnow

/-- A step keeps what holds of a thread, if it keeps the mutex of the one that
has it and what that one has checked. -/
theorem PhaseSound.later {t : Thread} {phase : AuthPhase Token}
    (h : s.PhaseSound timeoutSeconds t phase) (hissued : ∀ token ∈ s.issued, token ∈ s'.issued)
    (hheld : s.authFlowMutex = some t → s'.authFlowMutex = some t ∧
      (∀ b, s.Clear timeoutSeconds b → s'.Clear timeoutSeconds b) ∧
      ∀ token, Spent token s.now s.history → Spent token s'.now s'.history) :
    s'.PhaseSound timeoutSeconds t phase where
  mutex hholds := (hheld (h.mutex hholds)).1
  issued request hrequest token htoken := hissued token (h.issued request hrequest token htoken)
  clear call hcall :=
    (hheld (h.mutex (AuthPhase.holdsMutex_of_pastGate hcall))).2.1 _ (h.clear call hcall)
  spent call hcall request hcause := by
    have hpast := AuthPhase.pastGate_of_unrenewed hcall
    exact (hheld (h.mutex (AuthPhase.holdsMutex_of_pastGate hpast))).2.2 _
      (h.spent call hcall request hcause)

theorem TokenInv.later (h : s.TokenInv) (hnow : s.now ≤ s'.now)
    (haccess : s'.accessToken = s.accessToken) (hexpiry : s'.accessTokenExpiry = s.accessTokenExpiry)
    (hissued : s'.issued = s.issued) (hhistory : s'.history = s.history) : s'.TokenInv where
  issued := by rw [haccess, hissued]; exact h.issued
  past := by rw [hhistory]; exact fun cause time hmem => Int.le_trans (h.past cause time hmem) hnow
  rejectedIssued := by rw [hhistory, hissued]; exact h.rejectedIssued
  good := by rw [hhistory, haccess, hexpiry]; exact h.good
  replaced := by rw [hhistory, haccess]; exact h.replaced
  byOthers := by rw [hhistory]; exact h.byOthers

theorem TokenInv.invalidated (h : s.TokenInv) {rejectedToken : Option (Option Token)}
    (hcurrent : ∀ token, rejectedToken = some token → s.accessToken = token) :
    (s.invalidated rejectedToken).TokenInv where
  issued := h.issued
  past cause time hmem := by
    rcases List.mem_cons.mp hmem with heq | hmem
    · contradiction
    · exact h.past cause time hmem
  rejectedIssued request time hmem := by
    rcases List.mem_cons.mp hmem with heq | hmem
    · contradiction
    · exact h.rejectedIssued request time hmem
  good newer cause time older heq hnone := by
    cases newer with
    | nil => simp [AuthClient.invalidated] at heq
    | cons record newer =>
        obtain ⟨rfl, -⟩ := List.cons.inj heq
        exact absurd List.mem_cons_self (hnone rejectedToken)
  replaced request time hmem := by
    rcases List.mem_cons.mp hmem with heq | hmem
    · contradiction
    · exact h.replaced request time hmem
  byOthers newer request time older rejected heq hmem := by
    cases newer with
    | nil => contradiction
    | cons record newer =>
        obtain ⟨rfl, htail⟩ := List.cons.inj heq
        change s.history = newer ++ .renewed (some request) time :: older at htail
        rcases List.mem_cons.mp hmem with hhead | hmem
        · obtain rfl := AuthRecord.invalidated.inj hhead
          rintro rfl
          have hrenewed : .renewed (some request) time ∈ s.history := by rw [htail]; simp
          exact h.replaced request time hrenewed (hcurrent _ rfl)
        · exact h.byOthers newer request time older rejected htail hmem

theorem TokenInv.renewed (h : s.TokenInv) {call : AuthCall Token} {access : Token}
    {refresh : Option Token} (hfresh : access ∉ s.issued)
    (hcause : ∀ request, call.cause = some request →
      ∀ token, request.usedToken = some token → token ∈ s.issued) :
    (s.renewed call access refresh).TokenInv where
  issued token htoken := by
    obtain rfl := Option.some.inj htoken
    exact List.mem_cons_self
  past cause time hmem := by
    rcases List.mem_cons.mp hmem with heq | hmem
    · exact Int.le_of_eq (AuthRecord.renewed.inj heq).2
    · exact h.past cause time hmem
  rejectedIssued request time hmem token htoken := by
    refine List.mem_cons_of_mem _ ?_
    rcases List.mem_cons.mp hmem with heq | hmem
    · exact hcause request (AuthRecord.renewed.inj heq).1.symm token htoken
    · exact h.rejectedIssued request time hmem token htoken
  good newer cause time older heq _ := by
    have hmem : .renewed cause time ∈ (s.renewed call access refresh).history := by
      rw [heq]
      simp
    refine ⟨rfl, Int.add_le_add_right ?_ _⟩
    rcases List.mem_cons.mp hmem with heq | hmem
    · exact Int.le_of_eq (AuthRecord.renewed.inj heq).2
    · exact h.past cause time hmem
  replaced request time hmem heq := by
    have hissued : access ∈ s.issued := by
      rcases List.mem_cons.mp hmem with hhead | hmem
      · exact hcause request (AuthRecord.renewed.inj hhead).1.symm access heq.symm
      · exact h.rejectedIssued request time hmem access heq.symm
    exact hfresh hissued
  byOthers newer request time older rejected heq hmem := by
    cases newer with
    | nil => contradiction
    | cons record newer =>
        obtain ⟨rfl, htail⟩ := List.cons.inj heq
        rcases List.mem_cons.mp hmem with hhead | hmem
        · contradiction
        · exact h.byOthers newer request time older rejected htail hmem

section Failures

variable {outcome : AuthOutcome Token}

theorem FailuresHeld.later (h : s.FailuresHeld timeoutSeconds) (hnow : s.now ≤ s'.now)
    (hcount : s'.consecutiveLoginFailures = s.consecutiveLoginFailures)
    (huntil : s'.loginBackoffUntil = s.loginBackoffUntil)
    (hfailedAt : s'.transientLoginFailedAt = s.transientLoginFailedAt)
    (harmed : s'.transientLoginArmedByShortAttempt = s.transientLoginArmedByShortAttempt)
    (houtcomes : s'.outcomes = s.outcomes) : s'.FailuresHeld timeoutSeconds where
  count := by rw [hcount, houtcomes]; exact h.count
  rejections := by
    rw [hcount, huntil, houtcomes]
    exact fun r hr => (h.rejections r hr).imp_left fun hpast => Int.le_trans hpast hnow
  fullFailures := by
    rw [hfailedAt, harmed, houtcomes]
    exact fun f hf => ⟨Int.le_trans (h.fullFailures f hf).1 hnow,
      (h.fullFailures f hf).2.imp_left fun hpast => Int.le_trans hpast hnow⟩
  shortFailures := by
    rw [hfailedAt, houtcomes]
    exact fun f hf => ⟨Int.le_trans (h.shortFailures f hf).1 hnow,
      (h.shortFailures f hf).2.imp_left fun hpast => Int.le_trans hpast hnow⟩

/-- What failed otherwise holds nothing back. -/
theorem FailuresHeld.other (h : s.FailuresHeld timeoutSeconds) (hfailed : outcome.result.ok = false)
    (hrejection : outcome.isRejection = false) (htransient : outcome.isTransient = false) :
    (s.ended outcome).FailuresHeld timeoutSeconds where
  count := by
    show s.consecutiveLoginFailures = AuthOutcome.rejectionsSince (outcome :: s.outcomes)
    rw [AuthOutcome.rejectionsSince_of_failed hfailed, hrejection]
    exact h.count
  rejections := by
    rw [AuthClient.ended, AuthOutcome.rejections_cons_of_not hrejection]
    exact h.rejections
  fullFailures := by
    rw [AuthClient.ended, AuthOutcome.fullFailures_cons_of_not htransient]
    exact h.fullFailures
  shortFailures := by
    rw [AuthClient.ended, AuthOutcome.shortFailures_cons_of_not htransient hfailed]
    exact h.shortFailures

theorem Clear.other {b : Bool} (h : s.Clear timeoutSeconds b) (hfailed : outcome.result.ok = false)
    (hrejection : outcome.isRejection = false) (htransient : outcome.isTransient = false) :
    (s.ended outcome).Clear timeoutSeconds b where
  rejections := by
    rw [AuthClient.ended, AuthOutcome.rejections_cons_of_not hrejection]
    exact h.rejections
  fullFailures := by
    rw [AuthClient.ended, AuthOutcome.fullFailures_cons_of_not htransient]
    exact h.fullFailures
  shortFailures := by
    rw [AuthClient.ended, AuthOutcome.shortFailures_cons_of_not htransient hfailed]
    exact h.shortFailures

/-- A transient failure arms its cooldown over what the gate has cleared. -/
theorem FailuresHeld.armCooldown (h : s.FailuresHeld timeoutSeconds) (hpos : 0 < s.now)
    (hclear : s.Clear timeoutSeconds (hasShortBound timeoutSeconds outcome.call))
    (htime : outcome.time = s.now) (htransient : outcome.isTransient = true)
    (hrejection : outcome.isRejection = false) :
    ((s.armCooldown (hasShortBound timeoutSeconds outcome.call) outcome.result).ended
      outcome).FailuresHeld timeoutSeconds where
  count := by
    have hfailed : outcome.result.ok = false := by
      rw [AuthOutcome.isTransient, Bool.and_eq_true, Bool.not_eq_true'] at htransient
      exact htransient.1
    show s.consecutiveLoginFailures = AuthOutcome.rejectionsSince (outcome :: s.outcomes)
    rw [AuthOutcome.rejectionsSince_of_failed hfailed, hrejection]
    exact h.count
  rejections := by
    show ∀ r ∈ AuthOutcome.rejections (outcome :: s.outcomes), _
    rw [AuthOutcome.rejections_cons_of_not hrejection]
    exact h.rejections
  fullFailures f hf := by
    rcases AuthOutcome.mem_fullFailures_cons hf with ⟨rfl, hfull⟩ | hf
    · exact ⟨Int.le_of_eq htime, .inr ⟨hpos, Int.le_of_eq htime, hfull⟩⟩
    · exact ⟨(h.fullFailures f hf).1, .inl (hclear.fullFailures f hf)⟩
  shortFailures f hf := by
    have hle : f ≤ s.now := by
      rcases AuthOutcome.mem_shortFailures_cons hf with rfl | hf
      · exact Int.le_of_eq htime
      · exact (h.shortFailures f hf).1
    exact ⟨hle, .inr ⟨hpos, hle⟩⟩

/-- A success starts the count anew. -/
theorem FailuresHeld.succeeded (h : s.FailuresHeld timeoutSeconds) {b : Bool}
    (hclear : s.Clear timeoutSeconds b) (hok : outcome.result.ok = true)
    {s' : AuthClient Thread Token} (hnow : s'.now = s.now) (hcount : s'.consecutiveLoginFailures = 0)
    (houtcomes : s'.outcomes = outcome :: s.outcomes)
    (hlogin : outcome.isLogin = true ∨
      s'.transientLoginFailedAt = s.transientLoginFailedAt ∧
        s'.transientLoginArmedByShortAttempt = s.transientLoginArmedByShortAttempt) :
    s'.FailuresHeld timeoutSeconds where
  count := by rw [hcount, houtcomes, AuthOutcome.rejectionsSince, if_pos hok]
  rejections := by
    have hrejection : outcome.isRejection = false := by simp [AuthOutcome.isRejection, hok]
    rw [houtcomes, AuthOutcome.rejections_cons_of_not hrejection, hnow]
    exact fun r hr => .inl (hclear.rejections r hr)
  fullFailures := by
    have htransient : outcome.isTransient = false := by simp [AuthOutcome.isTransient, hok]
    rw [houtcomes, AuthOutcome.fullFailures_cons_of_not htransient, hnow]
    exact fun f hf => ⟨(h.fullFailures f hf).1, .inl (hclear.fullFailures f hf)⟩
  shortFailures := by
    rw [houtcomes, hnow]
    intro f hf
    rw [AuthOutcome.shortFailures, List.takeWhile_cons] at hf
    rcases hlogin with hlogin | ⟨hfailedAt, -⟩
    · simp [hlogin, hok] at hf
    · rw [hfailedAt]
      have hkept : f ∈ AuthOutcome.shortFailures timeoutSeconds s.outcomes := by
        split at hf
        · rwa [List.filter_cons_of_neg (by simp [AuthOutcome.isTransient, hok])] at hf
        · contradiction
      exact h.shortFailures f hkept

/-- A rejection arms the backoff of its number. -/
theorem FailuresHeld.rejected (h : s.FailuresHeld timeoutSeconds) {b : Bool}
    (hclear : s.Clear timeoutSeconds b) (htime : outcome.time = s.now)
    (hrejection : outcome.isRejection = true) (error : String) :
    (({ s with
        lastLoginError := error
        consecutiveLoginFailures := s.consecutiveLoginFailures + 1
        loginBackoffUntil :=
          s.now + seconds (computeLoginBackoffSeconds (s.consecutiveLoginFailures + 1)) } :
      AuthClient Thread Token).ended outcome).FailuresHeld timeoutSeconds := by
  have hfailed : outcome.result.ok = false := by
    simp only [AuthOutcome.isRejection, Bool.and_eq_true, Bool.not_eq_true'] at hrejection
    exact hrejection.1.2
  have htransient : outcome.isTransient = false := by
    simp only [AuthOutcome.isRejection, Bool.and_eq_true] at hrejection
    rw [AuthOutcome.isTransient, if_pos hrejection.1.1, hrejection.2, Bool.not_true, Bool.and_false]
  have hnumber : AuthOutcome.rejectionsSince (outcome :: s.outcomes) =
      s.consecutiveLoginFailures + 1 := by
    rw [AuthOutcome.rejectionsSince_of_failed hfailed, if_pos hrejection, h.count]
  refine ⟨hnumber.symm, fun r hr => ?_, ?_, ?_⟩
  · change r ∈ AuthOutcome.rejections (outcome :: s.outcomes) at hr
    rw [AuthOutcome.rejections, if_pos hrejection, hnumber, htime] at hr
    rcases List.mem_cons.mp hr with rfl | hr
    · exact .inr ⟨Nat.succ_pos _, Int.le_refl _⟩
    · exact .inl (hclear.rejections r hr)
  · rw [AuthClient.ended, AuthOutcome.fullFailures_cons_of_not htransient]
    exact h.fullFailures
  · rw [AuthClient.ended, AuthOutcome.shortFailures_cons_of_not htransient hfailed]
    exact h.shortFailures

end Failures

variable [DecidableEq Thread]

section Moves

variable {t : Thread}

omit [DecidableEq Thread] in
/-- What holds of a thread where it is. -/
theorem Inv.phaseSound (h : s.Inv timeoutSeconds) {phase : AuthPhase Token}
    (hphase : s.phase t = phase) : s.PhaseSound timeoutSeconds t phase :=
  hphase ▸ h.phases t

/-- A thread moves on. -/
theorem Inv.setPhase (h : s.Inv timeoutSeconds) {phase : AuthPhase Token}
    (hphase : s.PhaseSound timeoutSeconds t phase) :
    (s.setPhase t phase).Inv timeoutSeconds where
  now_pos := h.now_pos
  phases t' := by
    have hkept : ∀ {t'' : Thread} {p : AuthPhase Token}, s.PhaseSound timeoutSeconds t'' p →
        (s.setPhase t phase).PhaseSound timeoutSeconds t'' p := fun hsound =>
      hsound.later (fun _ hmem => hmem) fun hheld =>
        ⟨hheld, fun _ hclear => hclear.later (Int.le_refl _) rfl, fun _ hspent => hspent⟩
    by_cases heq : t' = t
    · subst heq
      simpa [AuthClient.setPhase] using hkept hphase
    · simpa [AuthClient.setPhase, heq] using hkept (h.phases t')
  token := h.token.later (Int.le_refl _) rfl rfl rfl rfl
  apart := h.apart
  failures := h.failures.later (Int.le_refl _) rfl rfl rfl rfl rfl

/-- A step of the thread that has the mutex asks for nothing of the others. -/
theorem Inv.ofHolder (h : s.Inv timeoutSeconds) (hheld : s.authFlowMutex = some t)
    (hnow : s.now = s'.now) (hissued : ∀ token ∈ s.issued, token ∈ s'.issued)
    (hphases : ∀ t', t' ≠ t → s'.phase t' = s.phase t')
    (hphase : s'.PhaseSound timeoutSeconds t (s'.phase t)) (htoken : s'.TokenInv)
    (hapart : RenewalsApart s'.history)
    (hfailures : s'.FailuresHeld timeoutSeconds) :
    s'.Inv timeoutSeconds where
  now_pos := hnow ▸ h.now_pos
  phases t' := by
    by_cases heq : t' = t
    · exact heq ▸ hphase
    · rw [hphases t' heq]
      refine (h.phases t').later hissued fun hheld' => ?_
      rw [hheld, Option.some.injEq] at hheld'
      exact absurd hheld'.symm heq
  token := htoken
  apart := hapart
  failures := hfailures

omit [DecidableEq Thread] in
/-- Outside the gate a thread only has its request. -/
theorem phaseSound_of_free {phase : AuthPhase Token} (hfree : phase.holdsMutex = false)
    (hissued : ∀ request, phase.request = some request →
      ∀ token, request.usedToken = some token → token ∈ s.issued) :
    s.PhaseSound timeoutSeconds t phase where
  mutex hholds := by simp [hfree] at hholds
  issued := hissued
  clear call hcall := by simp [AuthPhase.holdsMutex_of_pastGate hcall] at hfree
  spent call hcall := by
    simp [AuthPhase.holdsMutex_of_pastGate (AuthPhase.pastGate_of_unrenewed hcall)] at hfree

/-- The thread that has the mutex settles its call and returns. -/
theorem Inv.returnWith (h : s.Inv timeoutSeconds) (hheld : s.authFlowMutex = some t)
    {call : AuthCall Token} {result : AuthResult} (hcall : (s.phase t).request = call.cause)
    {m : AuthClient Thread Token} (hnow : m.now = s.now) (hphase : m.phase = s.phase)
    (haccess : m.accessToken = s.accessToken) (hexpiry : m.accessTokenExpiry = s.accessTokenExpiry)
    (hissued : m.issued = s.issued) (hhistory : m.history = s.history)
    (hfailures : m.FailuresHeld timeoutSeconds) :
    (m.returnWith t call result).Inv timeoutSeconds := by
  refine h.ofHolder hheld hnow.symm (fun _ hmem => hissued ▸ hmem) (fun t' hne => ?_) ?_
    (h.token.later (Int.le_of_eq hnow.symm) haccess hexpiry hissued hhistory) (hhistory ▸ h.apart)
    (hfailures.later (Int.le_refl _) rfl rfl rfl rfl rfl)
  · simp [AuthClient.returnWith, AuthClient.setPhase, hne, hphase]
  · have hreturned : (m.returnWith t call result).phase t = .returned call result := if_pos rfl
    rw [hreturned]
    refine phaseSound_of_free rfl fun request hrequest token htoken => ?_
    change token ∈ m.issued
    rw [hissued]
    exact (h.phases t).issued request (hcall.trans hrequest) token htoken

/-- So it does when a refresh or a login has ended. -/
theorem Inv.returnEnded (h : s.Inv timeoutSeconds) (hheld : s.authFlowMutex = some t)
    {call : AuthCall Token} {result : AuthResult} (hcall : (s.phase t).request = call.cause)
    {m : AuthClient Thread Token} {outcome : AuthOutcome Token}
    (hfailures : (m.ended outcome).FailuresHeld timeoutSeconds) (hnow : m.now = s.now)
    (hphase : m.phase = s.phase) (haccess : m.accessToken = s.accessToken)
    (hexpiry : m.accessTokenExpiry = s.accessTokenExpiry) (hissued : m.issued = s.issued)
    (hhistory : m.history = s.history) :
    ((m.returnWith t call result).ended outcome).Inv timeoutSeconds :=
  h.returnWith (m := m.ended outcome) hheld hcall hnow hphase haccess hexpiry hissued hhistory
    hfailures

end Moves

/-! ### every step -/

section Steps

variable {t : Thread} {call : AuthCall Token} {result : AuthResult}

/-- The end of a refresh. -/
theorem Inv.afterRefresh (h : s.Inv timeoutSeconds)
    (hphase : s.phase t = .refreshAnswered call result) :
    ((s.afterRefresh timeoutSeconds t call result).ended
      { isLogin := false, call, result, time := s.now }).Inv timeoutSeconds := by
  have hsound := h.phases t
  rw [hphase] at hsound
  have hheld := hsound.mutex rfl
  have hclear := hsound.clear call rfl
  have hcall : (s.phase t).request = call.cause := by rw [hphase]; rfl
  unfold AuthClient.afterRefresh
  split
  · next hok =>
      have hfailures : (({ s with transientLoginFailedStatus := -1, consecutiveLoginFailures := 0 } :
          AuthClient Thread Token).ended
            { isLogin := false, call, result, time := s.now }).FailuresHeld timeoutSeconds :=
        h.failures.succeeded hclear hok rfl rfl rfl (.inr ⟨rfl, rfl⟩)
      exact h.returnEnded hheld hcall hfailures rfl rfl rfl rfl rfl rfl
  · next hfailed =>
      rw [Bool.not_eq_true] at hfailed
      have hkind := classifyRefreshTokenFailure_spec result.httpStatus
      have hrejection : AuthOutcome.isRejection
          { isLogin := false, call, result, time := s.now } = false := rfl
      -- a failure that is followed by a login
      have hlogin : classifyRefreshTokenFailure result.httpStatus ≠ .transient →
          ∀ refreshToken, ((({ s with refreshToken } : AuthClient Thread Token).setPhase t
            (.loginStart call)).ended { isLogin := false, call, result, time := s.now }).Inv
              timeoutSeconds := fun hne refreshToken => by
        have htransient : AuthOutcome.isTransient
            { isLogin := false, call, result, time := s.now } = false := by
          rw [AuthOutcome.isTransient, if_neg Bool.false_ne_true, ← Bool.not_eq_true]
          exact fun htransient => hne (hkind.mp (Bool.and_eq_true_iff.mp htransient).2)
        refine h.ofHolder hheld rfl (fun _ hmem => hmem) (fun t' hne => if_neg hne) ?_
          (h.token.later (Int.le_refl _) rfl rfl rfl rfl) h.apart
          ((h.failures.other hfailed hrejection htransient).later (Int.le_refl _) rfl rfl rfl rfl rfl)
        have hstart : ((({ s with refreshToken } : AuthClient Thread Token).setPhase t
            (.loginStart call)).ended { isLogin := false, call, result, time := s.now }).phase t =
              .loginStart call := if_pos rfl
        rw [hstart]
        exact ⟨fun _ => hheld, hsound.issued, fun call' hcall' => by
            obtain rfl := Option.some.inj hcall'
            exact (hclear.other hfailed hrejection htransient).later (Int.le_refl _) rfl,
          fun call' hcall' => hsound.spent call' (by simpa [AuthPhase.unrenewed, hfailed] using hcall')⟩
      split
      · next hrejected => exact hlogin (by rw [hrejected]; decide) none
      · next htransient =>
          have hoccurred : AuthOutcome.isTransient
              { isLogin := false, call, result, time := s.now } = true := by
            rw [AuthOutcome.isTransient, if_neg Bool.false_ne_true, hfailed]
            exact hkind.mpr htransient
          exact h.returnEnded hheld hcall
            (h.failures.armCooldown h.now_pos hclear rfl hoccurred hrejection) rfl rfl rfl rfl rfl rfl
      · next hother => exact hlogin (by rw [hother]; decide) s.refreshToken

/-- The end of a login. -/
theorem Inv.afterLogin (h : s.Inv timeoutSeconds)
    (hphase : s.phase t = .loginAnswered call result) :
    ((s.afterLogin timeoutSeconds t call result).ended
      { isLogin := true, call, result, time := s.now }).Inv timeoutSeconds := by
  have hsound := h.phases t
  rw [hphase] at hsound
  have hheld := hsound.mutex rfl
  have hclear := hsound.clear call rfl
  have hcall : (s.phase t).request = call.cause := by rw [hphase]; rfl
  have hcounts := shouldCountTowardLoginBackoff_spec result.httpStatus
  unfold AuthClient.afterLogin
  split
  · next hok =>
      have hfailures : (({ s with
          consecutiveLoginFailures := 0
          transientLoginFailedAt := 0
          transientLoginArmedByShortAttempt := false
          transientLoginFailedStatus := -1 } : AuthClient Thread Token).ended
            { isLogin := true, call, result, time := s.now }).FailuresHeld timeoutSeconds :=
        h.failures.succeeded hclear hok rfl rfl rfl (.inl rfl)
      exact h.returnEnded hheld hcall hfailures rfl rfl rfl rfl rfl rfl
  · next hfailed =>
      rw [Bool.not_eq_true] at hfailed
      split
      · next hcount =>
          have hrejection : AuthOutcome.isRejection
              { isLogin := true, call, result, time := s.now } = true := by
            rw [AuthOutcome.isRejection, hfailed]
            exact hcounts.mpr hcount
          exact h.returnEnded hheld hcall
            (h.failures.rejected hclear rfl hrejection result.error) rfl rfl rfl rfl rfl rfl
      · next hcount =>
          have hnone : [400, 401, 403, 429].contains result.httpStatus = false := by
            rw [← Bool.not_eq_true]
            exact fun hmem => hcount (hcounts.mp hmem)
          have hoccurred : AuthOutcome.isTransient
              { isLogin := true, call, result, time := s.now } = true := by
            rw [AuthOutcome.isTransient, if_pos rfl, hfailed, hnone]
            rfl
          have hrejection : AuthOutcome.isRejection
              { isLogin := true, call, result, time := s.now } = false := by
            rw [AuthOutcome.isRejection, hnone, Bool.and_false]
          exact h.returnEnded hheld hcall
            (h.failures.armCooldown h.now_pos hclear rfl hoccurred hrejection) rfl rfl rfl rfl rfl rfl

/-- The answer to a refresh or a login that brings new tokens. -/
theorem Inv.renewed (h : s.Inv timeoutSeconds) {access : Token} {refresh : Option Token}
    (hunrenewed : (s.phase t).unrenewed = some call) (hcall : (s.phase t).request = call.cause)
    (hfresh : access ∉ s.issued) {phase : AuthPhase Token} (hpast : phase.pastGate = some call)
    (hdone : phase.unrenewed = none) (hrequest : phase.request = call.cause) :
    ((s.renewed call access refresh).setPhase t phase).Inv timeoutSeconds := by
  have hsound := h.phases t
  have hpastGate := AuthPhase.pastGate_of_unrenewed hunrenewed
  have hheld := hsound.mutex (AuthPhase.holdsMutex_of_pastGate hpastGate)
  have hclear := hsound.clear call hpastGate
  have hissued : ∀ request, call.cause = some request →
      ∀ token, request.usedToken = some token → token ∈ s.issued :=
    fun request hcause => hsound.issued request (hcall.trans hcause)
  have htoken : (s.renewed call access refresh).TokenInv := h.token.renewed hfresh hissued
  refine h.ofHolder hheld rfl (fun _ hmem => List.mem_cons_of_mem _ hmem)
    (fun t' hne => if_neg hne) ?_ (htoken.later (Int.le_refl _) rfl rfl rfl rfl)
    (h.apart.renewed (hsound.spent call hunrenewed))
    (h.failures.later (Int.le_refl _) rfl rfl rfl rfl rfl)
  have hphase : ((s.renewed call access refresh).setPhase t phase).phase t = phase := if_pos rfl
  rw [hphase]
  refine ⟨fun _ => hheld, fun request hcause token htoken => ?_, fun call' hcall' => ?_,
    fun call' hcall' => ?_⟩
  · exact List.mem_cons_of_mem _ (hissued request (hrequest.symm.trans hcause) token htoken)
  · obtain rfl := Option.some.inj (hpast.symm.trans hcall')
    exact hclear.later (Int.le_refl _) rfl
  · rw [hdone] at hcall'
    contradiction

/-- A thread finds the flow mutex free and takes it. -/
theorem Inv.lock (h : s.Inv timeoutSeconds) (hfree : s.authFlowMutex = none)
    (hphase : s.phase t = .waiting call) :
    ({ s.setPhase t (.locked call) with authFlowMutex := some t } :
      AuthClient Thread Token).Inv timeoutSeconds where
  now_pos := h.now_pos
  phases t' := by
    by_cases heq : t' = t
    · subst heq
      have hsound := h.phases t'
      rw [hphase] at hsound
      simpa [AuthClient.setPhase] using
        (⟨fun _ => rfl, hsound.issued, fun _ hcall => (by cases hcall),
            fun _ hcall => (by cases hcall)⟩ :
          PhaseSound timeoutSeconds { s.setPhase t' (.locked call) with authFlowMutex := some t' }
            t' (.locked call))
    · have hkept : PhaseSound timeoutSeconds
          { s.setPhase t (.locked call) with authFlowMutex := some t } t' (s.phase t') :=
        (h.phases t').later (fun _ hmem => hmem) fun hheld => by rw [hfree] at hheld; contradiction
      simpa [AuthClient.setPhase, heq] using hkept
  token := h.token.later (Int.le_refl _) rfl rfl rfl rfl
  apart := h.apart
  failures := h.failures.later (Int.le_refl _) rfl rfl rfl rfl rfl

omit [DecidableEq Thread] in
theorem Inv.clock (h : s.Inv timeoutSeconds) (elapsed : Nat) :
    ({ s with now := s.now + elapsed } : AuthClient Thread Token).Inv timeoutSeconds := by
  have hle : s.now ≤ s.now + elapsed := by omega
  exact {
    now_pos := Int.lt_of_lt_of_le h.now_pos hle
    phases := fun t => (h.phases t).later (fun _ hmem => hmem) fun hheld =>
      ⟨hheld, fun _ hclear => hclear.later hle rfl, fun _ hspent => hspent.mono hle⟩
    token := h.token.later hle rfl rfl rfl rfl
    apart := h.apart
    failures := h.failures.later hle rfl rfl rfl rfl rfl }

omit [DecidableEq Thread] in
/-- An invalidation only adds to the history. -/
theorem Inv.invalidated (h : s.Inv timeoutSeconds) {rejectedToken : Option (Option Token)}
    (hcurrent : ∀ token, rejectedToken = some token → s.accessToken = token) :
    (s.invalidated rejectedToken).Inv timeoutSeconds where
  now_pos := h.now_pos
  phases t := (h.phases t).later (fun _ hmem => hmem) fun hheld =>
    ⟨hheld, fun _ hclear => hclear.later (Int.le_refl _) rfl,
      fun _ hspent => hspent.invalidated rejectedToken⟩
  token := h.token.invalidated hcurrent
  apart := h.apart.invalidated rejectedToken
  failures := h.failures.later (Int.le_refl _) rfl rfl rfl rfl rfl

omit [DecidableEq Thread] in
/-- The deferral at startup arms the cooldown, for everyone. -/
theorem Inv.deferred (h : s.Inv timeoutSeconds) (reason : String) (hfree : s.authFlowMutex = none) :
    ({ s with
      transientLoginFailedAt := s.now
      transientLoginArmedByShortAttempt := false
      transientLoginFailedStatus := 0
      lastLoginError := reason } : AuthClient Thread Token).Inv timeoutSeconds where
  now_pos := h.now_pos
  phases t := (h.phases t).later (fun _ hmem => hmem) fun hheld => by
    rw [hfree] at hheld
    contradiction
  token := h.token.later (Int.le_refl _) rfl rfl rfl rfl
  apart := h.apart
  failures :=
    { count := h.failures.count
      rejections := h.failures.rejections
      fullFailures := fun f hf =>
        ⟨(h.failures.fullFailures f hf).1,
          .inr ⟨h.now_pos, (h.failures.fullFailures f hf).1, rfl⟩⟩
      shortFailures := fun f hf =>
        ⟨(h.failures.shortFailures f hf).1, .inr ⟨h.now_pos, (h.failures.shortFailures f hf).1⟩⟩ }

variable [DecidableEq Token] {e : AuthEvent Thread Token}

/-- The rejected token goes, if it is the one in hand. -/
theorem Inv.invalidateIfCurrent (h : s.Inv timeoutSeconds)
    (hstep : s.step timeoutSeconds (.invalidateIfCurrent t) = some s') : s'.Inv timeoutSeconds := by
  simp only [AuthClient.step] at hstep
  split at hstep
  · next request timeoutMsOverride hphase =>
      have hsound := h.phaseSound hphase
      have hentered : (s.setPhase t (.entered ⟨some request, timeoutMsOverride⟩)).Inv
          timeoutSeconds := h.setPhase (phaseSound_of_free rfl hsound.issued)
      split at hstep <;> obtain rfl := Option.some.inj hstep
      · next hcurrent =>
          exact hentered.invalidated fun token htoken => Option.some.inj htoken ▸ hcurrent
      · exact hentered
  · contradiction

/-- The gate lets a call on that finds nothing in its way. -/
theorem Inv.gate (h : s.Inv timeoutSeconds)
    (hstep : s.step timeoutSeconds (.gate t) = some s') : s'.Inv timeoutSeconds := by
  simp only [AuthClient.step] at hstep
  split at hstep
  · next call hphase =>
      have hsound := h.phaseSound hphase
      have hheld := hsound.mutex rfl
      have hcall : (s.phase t).request = call.cause := by rw [hphase]; rfl
      have hreturned : ∀ result, (s.returnWith t call result).Inv timeoutSeconds := fun _ =>
        h.returnWith hheld hcall rfl rfl rfl rfl rfl rfl h.failures
      split at hstep
      · obtain rfl := Option.some.inj hstep
        exact hreturned _
      · obtain rfl := Option.some.inj hstep
        exact hreturned _
      · obtain rfl := Option.some.inj hstep
        exact hreturned _
      · next hgate =>
          obtain rfl := Option.some.inj hstep
          have hclear := h.clear_of_proceed hgate
          have hspent := h.token.spent (decideAuthGate_eq_proceed_iff.mp hgate).1
          refine h.setPhase ?_
          split
          · exact ⟨fun _ => hheld, hsound.issued,
              fun call' hcall' => Option.some.inj hcall' ▸ hclear, fun _ _ _ _ => hspent _⟩
          · exact ⟨fun _ => hheld, hsound.issued,
              fun call' hcall' => Option.some.inj hcall' ▸ hclear, fun _ _ _ _ => hspent _⟩
  · contradiction

/-- A refresh is answered, with a new token or not. -/
theorem Inv.refreshAnswer (h : s.Inv timeoutSeconds) {answer : TokenAnswer Token}
    (hstep : s.step timeoutSeconds (.refreshAnswer t answer) = some s') : s'.Inv timeoutSeconds := by
  simp only [AuthClient.step] at hstep
  split at hstep
  · next call access refresh hphase =>
      split at hstep
      · next hfresh =>
          obtain rfl := Option.some.inj hstep
          exact h.renewed (by rw [hphase]; rfl) (by rw [hphase]; rfl) hfresh rfl rfl rfl
      · contradiction
  · next call httpStatus error hphase =>
      have hsound := h.phaseSound hphase
      obtain rfl := Option.some.inj hstep
      exact h.setPhase ⟨hsound.mutex, hsound.issued, hsound.clear, hsound.spent⟩
  · contradiction

/-- A login is answered, with a new token or not. -/
theorem Inv.loginAnswer (h : s.Inv timeoutSeconds) {answer : TokenAnswer Token}
    (hstep : s.step timeoutSeconds (.loginAnswer t answer) = some s') : s'.Inv timeoutSeconds := by
  simp only [AuthClient.step] at hstep
  split at hstep
  · next call access refresh hphase =>
      split at hstep
      · next hfresh =>
          obtain rfl := Option.some.inj hstep
          exact h.renewed (by rw [hphase]; rfl) (by rw [hphase]; rfl) hfresh rfl rfl rfl
      · contradiction
  · next call httpStatus error hphase =>
      have hsound := h.phaseSound hphase
      obtain rfl := Option.some.inj hstep
      exact h.setPhase ⟨hsound.mutex, hsound.issued, hsound.clear, fun _ hcall => by cases hcall⟩
  · contradiction

/-- A thread that was rejected goes on with the token in hand. -/
theorem Inv.returns (h : s.Inv timeoutSeconds)
    (hstep : s.step timeoutSeconds (.returns t) = some s') : s'.Inv timeoutSeconds := by
  simp only [AuthClient.step] at hstep
  split at hstep
  · next request timeoutMsOverride result hphase =>
      split at hstep <;> obtain rfl := Option.some.inj hstep
      · refine h.setPhase (phaseSound_of_free rfl fun request hrequest token htoken => ?_)
        obtain rfl := Option.some.inj hrequest
        exact h.token.issued token htoken
      · exact h.setPhase (phaseSound_of_free rfl fun _ hrequest => by cases hrequest)
  · obtain rfl := Option.some.inj hstep
    exact h.setPhase (phaseSound_of_free rfl fun _ hrequest => by cases hrequest)
  · contradiction

/-- **Step lemma**: the invariant survives every step. -/
theorem Inv.step (h : s.Inv timeoutSeconds) (hstep : s.step timeoutSeconds e = some s') :
    s'.Inv timeoutSeconds := by
  cases e with
  | clock elapsed =>
      rw [step_clock] at hstep
      obtain rfl := Option.some.inj hstep
      exact h.clock elapsed
  | request t retryOnAuthFailure timeoutMsOverride =>
      simp only [AuthClient.step] at hstep
      split at hstep
      · obtain rfl := Option.some.inj hstep
        refine h.setPhase (phaseSound_of_free rfl fun request hrequest token htoken => ?_)
        obtain rfl := Option.some.inj hrequest
        exact h.token.issued token htoken
      · contradiction
  | answered t =>
      simp only [AuthClient.step] at hstep
      split at hstep
      · obtain rfl := Option.some.inj hstep
        exact h.setPhase (phaseSound_of_free rfl fun _ hrequest => by cases hrequest)
      · contradiction
  | answered401 t =>
      simp only [AuthClient.step] at hstep
      split at hstep
      · next request timeoutMsOverride hphase =>
          have hsound := h.phaseSound hphase
          split at hstep <;> obtain rfl := Option.some.inj hstep
          · exact h.setPhase (phaseSound_of_free rfl hsound.issued)
          · exact h.setPhase (phaseSound_of_free rfl fun _ hrequest => by cases hrequest)
      · contradiction
  | invalidateIfCurrent t => exact h.invalidateIfCurrent hstep
  | ensure t timeoutMsOverride =>
      simp only [AuthClient.step] at hstep
      split at hstep
      · obtain rfl := Option.some.inj hstep
        exact h.setPhase (phaseSound_of_free rfl fun _ hrequest => by cases hrequest)
      · contradiction
  | fastPath t =>
      simp only [AuthClient.step] at hstep
      split at hstep
      · next call hphase =>
          have hsound := h.phaseSound hphase
          split at hstep <;> obtain rfl := Option.some.inj hstep
          · exact h.setPhase (phaseSound_of_free rfl hsound.issued)
          · exact h.setPhase (phaseSound_of_free rfl hsound.issued)
      · contradiction
  | lock t =>
      simp only [AuthClient.step] at hstep
      split at hstep
      · next call hphase hfree =>
          obtain rfl := Option.some.inj hstep
          exact h.lock hfree hphase
      · contradiction
  | gate t => exact h.gate hstep
  | sendRefresh t =>
      simp only [AuthClient.step] at hstep
      split at hstep
      · next call hphase =>
          have hsound := h.phaseSound hphase
          split at hstep <;> obtain rfl := Option.some.inj hstep
          · exact h.setPhase ⟨hsound.mutex, hsound.issued, hsound.clear, hsound.spent⟩
          · exact h.setPhase ⟨hsound.mutex, hsound.issued, hsound.clear, hsound.spent⟩
      · contradiction
  | refreshAnswer t answer => exact h.refreshAnswer hstep
  | refreshDone t =>
      simp only [AuthClient.step] at hstep
      split at hstep
      · next call result hphase =>
          obtain rfl := Option.some.inj hstep
          exact h.afterRefresh hphase
      · contradiction
  | sendLogin t =>
      simp only [AuthClient.step] at hstep
      split at hstep
      · next call hphase =>
          have hsound := h.phaseSound hphase
          obtain rfl := Option.some.inj hstep
          exact h.setPhase ⟨hsound.mutex, hsound.issued, hsound.clear, hsound.spent⟩
      · contradiction
  | loginAnswer t answer => exact h.loginAnswer hstep
  | loginDone t =>
      simp only [AuthClient.step] at hstep
      split at hstep
      · next call result hphase =>
          obtain rfl := Option.some.inj hstep
          exact h.afterLogin hphase
      · contradiction
  | returns t => exact h.returns hstep
  | systemWake =>
      rw [step_systemWake] at hstep
      obtain rfl := Option.some.inj hstep
      exact h.invalidated fun _ htoken => by cases htoken
  | deferAuthentication reason =>
      simp only [AuthClient.step] at hstep
      split at hstep
      · next hfree =>
          split at hstep <;> obtain rfl := Option.some.inj hstep
          · exact h
          · exact h.deferred reason hfree
      · contradiction

end Steps

/-! ## runs -/

variable [DecidableEq Token]

omit [DecidableEq Thread] [DecidableEq Token] in
theorem inv_init (timeoutSeconds : Int) (uptime : Nat) :
    (init uptime : AuthClient Thread Token).Inv timeoutSeconds where
  now_pos := Int.natCast_succ_pos uptime
  phases _ := phaseSound_of_free rfl fun _ hrequest => by cases hrequest
  token :=
    { issued := fun _ htoken => by cases htoken
      past := fun _ _ hmem => by cases hmem
      rejectedIssued := fun _ _ hmem => by cases hmem
      good := fun newer _ _ _ heq => by simp [init] at heq
      replaced := fun _ _ hmem => by cases hmem
      byOthers := fun newer _ _ _ _ heq => by simp [init] at heq }
  apart newer _ _ _ heq := by simp [init] at heq
  failures :=
    { count := rfl
      rejections := fun _ hr => by cases hr
      fullFailures := fun _ hf => by cases hf
      shortFailures := fun _ hf => by cases hf }

omit [DecidableEq Thread] [DecidableEq Token] in
/-- A thread whose request is out has the flow mutex. -/
theorem Inv.held_of_sending (h : s.Inv timeoutSeconds) {t : Thread} (hsending : s.Sending t) :
    s.authFlowMutex = some t := by
  obtain ⟨call, hphase | hphase⟩ := hsending
  · exact (h.phases t).mutex (by rw [hphase]; rfl)
  · exact (h.phases t).mutex (by rw [hphase]; rfl)

/-- **No authentication storm.**  In every state of every run, the refreshes
and logins of a client do not overlap; one is sent only when the backoff of each
credential rejection so far is over, by its number since the last success, and
the cooldown of each transient failure of a full-length attempt, and for a
short-bounded caller also that of each short-bounded attempt since the last login;
and two renewals for rejections of one token are a token's lifetime apart, or a
newer token was invalidated between them. -/
theorem authentication_storm_bound (timeoutSeconds : Int) (uptime : Nat)
    {es : List (AuthEvent Thread Token)} {s : AuthClient Thread Token}
    (hrun : run (AuthClient.step timeoutSeconds) (init uptime) es = some s) :
    (∀ t t', s.Sending t → s.Sending t' → t = t') ∧
    (∀ e s' call, s.step timeoutSeconds e = some s' → s.Sends e call →
      (∀ newer rejection older, s.outcomes = newer ++ rejection :: older →
        rejection.isRejection = true →
        rejection.time +
          seconds (computeLoginBackoffSeconds (AuthOutcome.rejectionsSince (rejection :: older))) ≤
            s.now) ∧
      (∀ failure ∈ s.outcomes, failure.isTransient = true →
        hasShortBound timeoutSeconds failure.call = false →
        failure.time + seconds kTransientLoginRetrySeconds ≤ s.now) ∧
      (hasShortBound timeoutSeconds call = true →
        ∀ newer failure older, s.outcomes = newer ++ failure :: older →
          failure.isTransient = true → hasShortBound timeoutSeconds failure.call = true →
          (∀ later ∈ newer, ¬ (later.isLogin = true ∧ later.result.ok = true)) →
          failure.time + seconds kTransientLoginRetrySeconds ≤ s.now)) ∧
    ∀ newer second time₂ between first time₁ older,
      s.history = newer ++ .renewed (some second) time₂ ::
        (between ++ .renewed (some first) time₁ :: older) →
      first.usedToken = second.usedToken →
      time₁ + accessTokenLifetime ≤ time₂ ∨
        ∃ rejectedToken, .invalidated rejectedToken ∈ between ∧
          rejectedToken ≠ some first.usedToken := by
  have h : s.Inv timeoutSeconds :=
    invariant (I := Inv timeoutSeconds) (fun h hs => h.step hs) (inv_init timeoutSeconds uptime) hrun
  refine ⟨fun t t' ht ht' => ?_, fun e s' call _ hsends => ?_, ?_⟩
  · exact Option.some.inj ((h.held_of_sending ht).symm.trans (h.held_of_sending ht'))
  · have hclear : s.Clear timeoutSeconds (hasShortBound timeoutSeconds call) := by
      rcases hsends with ⟨t, -, hphase⟩ | ⟨t, -, hphase⟩
      · exact (h.phases t).clear call (by rw [hphase]; rfl)
      · exact (h.phases t).clear call (by rw [hphase]; rfl)
    refine ⟨fun newer rejection older heq hrejection => ?_, fun failure hmem htransient hfull => ?_,
      fun hshort newer failure older heq htransient hfailure hnewer => ?_⟩
    · exact hclear.rejections _ (heq ▸ AuthOutcome.mem_rejections hrejection)
    · exact hclear.fullFailures _ (AuthOutcome.mem_fullFailures hmem htransient hfull)
    · exact hclear.shortFailures hshort _
        (heq ▸ AuthOutcome.mem_shortFailures htransient hfailure hnewer)
  · intro newer second time₂ between first time₁ older heq hsame
    have hapart := h.apart newer second time₂ _ heq between first time₁ older rfl hsame
    rwa [← hsame] at hapart

/-! ### two renewals for one token -/

/-- The renewals for rejections of `token`. -/
def renewalsFor (token : Option Token) (history : List (AuthRecord Token)) : Nat :=
  history.countP fun
    | .renewed (some request) _ => request.usedToken = token
    | _ => false

/-- A login brings token 0; two threads are rejected with it, and the first
refreshes. -/
def rejectedTwice : List (AuthEvent Bool Nat) :=
  [.ensure false 0, .fastPath false, .lock false, .gate false, .sendLogin false,
    .loginAnswer false (.tokens 0 (some (some 100))), .loginDone false, .returns false,
    .request false 1 0, .request true 1 0, .answered401 false, .answered401 true,
    .invalidateIfCurrent false, .fastPath false, .lock false, .gate false, .sendRefresh false,
    .refreshAnswer false (.tokens 1 none), .refreshDone false, .returns false]

/-- The second goes on when the new token's four minutes are over. -/
def fourMinutesLater : List (AuthEvent Bool Nat) :=
  [.clock 240000000000, .invalidateIfCurrent true, .fastPath true, .lock true, .gate true,
    .sendRefresh true, .refreshAnswer true (.tokens 2 none), .refreshDone true]

/-- The two threads cause a successful refresh each. -/
theorem fourMinutesLater_renews_again :
    ¬ ∀ (es : List (AuthEvent Bool Nat)) (s : AuthClient Bool Nat),
      run (AuthClient.step 30) (init 0) es = some s →
        ∀ token, renewalsFor token s.history ≤ 1 := by
  intro hall
  have hsome : (run (AuthClient.step 30) (init 0 : AuthClient Bool Nat)
      (rejectedTwice ++ fourMinutesLater)).isSome := by decide +kernel
  have htwice : ¬ renewalsFor (some 0) (Option.get _ hsome).history ≤ 1 := by
    decide +kernel +revert
  exact htwice (hall _ _ (Option.some_get hsome).symm _)

/-- A login that is refused. -/
def refusedLogin (httpStatus : Int) : List (AuthEvent Bool Nat) :=
  [.ensure false 0, .fastPath false, .lock false, .gate false, .sendLogin false,
    .loginAnswer false (.failed httpStatus ""), .loginDone false, .returns false]

/-- Two are, and a third is to be sent once the second's minute is over. -/
def thirdLogin : List (AuthEvent Bool Nat) :=
  refusedLogin 401 ++ .clock 30000000000 :: refusedLogin 429 ++ .clock 60000000000 ::
    [.ensure false 0, .fastPath false, .lock false, .gate false]

/-- The two refreshes are a token's lifetime apart, and the third login waits a
minute for the second. -/
theorem authentication_storm_bound_fourMinutesLater :
    (∃ s : AuthClient Bool Nat,
      run (AuthClient.step 30) (init 0) (rejectedTwice ++ fourMinutesLater) = some s ∧
      ∀ newer second time₂ between first time₁ older,
        s.history = newer ++ .renewed (some second) time₂ ::
          (between ++ .renewed (some first) time₁ :: older) →
        first.usedToken = second.usedToken →
        time₁ + accessTokenLifetime ≤ time₂ ∨
          ∃ rejectedToken, .invalidated rejectedToken ∈ between ∧
            rejectedToken ≠ some first.usedToken) ∧
    ∃ s : AuthClient Bool Nat, run (AuthClient.step 30) (init 0) thirdLogin = some s ∧
      ∃ rejection older, s.outcomes = rejection :: older ∧
        AuthOutcome.rejectionsSince s.outcomes = 2 ∧
        rejection.time + seconds (computeLoginBackoffSeconds 2) ≤ s.now := by
  constructor
  · have hsome : (run (AuthClient.step 30) (init 0 : AuthClient Bool Nat)
        (rejectedTwice ++ fourMinutesLater)).isSome := by decide +kernel
    have hrun := (Option.some_get hsome).symm
    exact ⟨_, hrun, (authentication_storm_bound 30 0 hrun).2.2⟩
  · have hsome : (run (AuthClient.step 30) (init 0 : AuthClient Bool Nat) thirdLogin).isSome := by
      decide +kernel
    have hthird : ∀ s, (run (AuthClient.step 30) (init 0 : AuthClient Bool Nat) thirdLogin).get
        hsome = s → s.phase false = .loginStart ⟨none, 0⟩ ∧
          (s.step 30 (.sendLogin false)).isSome = true ∧
          AuthOutcome.rejectionsSince s.outcomes = 2 ∧
          s.outcomes.head?.map AuthOutcome.isRejection = some true := by
      rintro s rfl
      decide +kernel +revert
    obtain ⟨hphase, hsent, hnumber, hrefused⟩ := hthird _ rfl
    have hrun := (Option.some_get hsome).symm
    generalize (run (AuthClient.step 30) (init 0 : AuthClient Bool Nat) thirdLogin).get hsome = s
      at hrun hphase hsent hnumber hrefused
    have hbound := ((authentication_storm_bound 30 0 hrun).2.1 _ _ _ (Option.some_get hsent).symm
      (.inr ⟨false, rfl, hphase⟩)).1
    refine ⟨s, hrun, ?_⟩
    cases houtcomes : s.outcomes with
    | nil => simp [houtcomes] at hrefused
    | cons rejection older =>
        rw [houtcomes] at hnumber hrefused
        have hspent := hbound [] rejection older houtcomes (Option.some.inj hrefused)
        rw [hnumber] at hspent
        exact ⟨rejection, older, rfl, hnumber, hspent⟩

end AuthClient

end DispatcharrPvr
