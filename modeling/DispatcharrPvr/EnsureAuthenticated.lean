import DispatcharrPvr.AuthBackoff
import DispatcharrPvr.Lib.Runs
import DispatcharrPvr.Staleness

/-!
# EnsureAuthenticated

The authentication of one `DispatcharrClient`, used by any number of threads:
`EnsureAuthenticated` with `RefreshAccessToken` and `Login`, the retry of
`Request` after a 401, and the two other writers of its state, the invalidation
at a wake and the deferral at startup.  A step is what a thread does under
`m_authStateMutex`, the taking of `m_authFlowMutex`, or a request going out or
being answered; the clock may advance between any two.

Tokens are of any type; `none` is the empty string.  The server answers what it
likes, but for one thing: an access token it hands out is a new one.  What the
state keeps beyond the code are the tokens handed out, the renewals, and how the
refreshes and logins ended.
-/

namespace DispatcharrPvr

/-- `kTransientLoginRetrySeconds`. -/
def kTransientLoginRetrySeconds : Int := 30

/-- The lifetime a new access token is given. -/
def accessTokenLifetime : Int := seconds (60 * 4)

/-- A request that was answered 401 and may be tried again. -/
structure RejectedRequest (Token : Type) where
  usedToken : Option Token
  retryOnAuthFailure : Nat
deriving DecidableEq, Repr

/-- A call of `EnsureAuthenticated`, and the 401 it answers to, if any. -/
structure AuthCall (Token : Type) where
  cause : Option (RejectedRequest Token)
  timeoutMsOverride : Int
deriving DecidableEq, Repr

/-- What `EnsureAuthenticated` gives back; a status of -1 is none. -/
structure AuthResult where
  ok : Bool
  httpStatus : Int := -1
  error : String := ""
deriving DecidableEq, Repr

/-- An answer to a refresh or a login.  An answer with an access token has the
`refresh` field, if any, besides. -/
inductive TokenAnswer (Token : Type)
  | tokens (access : Token) (refresh : Option (Option Token))
  | failed (httpStatus : Int) (error : String)
deriving DecidableEq, Repr

/-- How a refresh or a login ended. -/
structure AuthOutcome (Token : Type) where
  isLogin : Bool
  call : AuthCall Token
  result : AuthResult
  time : Int
deriving DecidableEq, Repr

/-- Where a thread is. -/
inductive AuthPhase (Token : Type)
  | idle
  | requesting (request : RejectedRequest Token) (timeoutMsOverride : Int)
  /-- Answered 401. -/
  | rejected (request : RejectedRequest Token) (timeoutMsOverride : Int)
  | entered (call : AuthCall Token)
  /-- Without a token, ahead of the flow mutex. -/
  | waiting (call : AuthCall Token)
  | locked (call : AuthCall Token)
  /-- Past the gate, with a refresh token. -/
  | refreshStart (call : AuthCall Token)
  | refreshSent (call : AuthCall Token)
  | refreshAnswered (call : AuthCall Token) (result : AuthResult)
  | loginStart (call : AuthCall Token)
  | loginSent (call : AuthCall Token)
  | loginAnswered (call : AuthCall Token) (result : AuthResult)
  | returned (call : AuthCall Token) (result : AuthResult)
deriving DecidableEq, Repr

/-- What the history of a client records. -/
inductive AuthRecord (Token : Type)
  /-- A refresh or login that succeeded, in a call with this cause. -/
  | renewed (cause : Option (RejectedRequest Token)) (time : Int)
  /-- The token in hand was invalidated, by a rejection of the token named or
  for no rejection. -/
  | invalidated (rejectedToken : Option (Option Token))
deriving DecidableEq, Repr

/-- The authentication state of a client and its threads. -/
structure AuthClient (Thread Token : Type) where
  now : Int
  accessToken : Option Token := none
  refreshToken : Option Token := none
  accessTokenExpiry : Int := 0
  consecutiveLoginFailures : Nat := 0
  loginBackoffUntil : Int := 0
  transientLoginFailedAt : Int := 0
  transientLoginArmedByShortAttempt : Bool := false
  transientLoginFailedStatus : Int := -1
  lastLoginError : String := ""
  authFlowMutex : Option Thread := none
  phase : Thread → AuthPhase Token
  /-- The access tokens handed out. -/
  issued : List Token := []
  /-- The newest record comes first. -/
  history : List (AuthRecord Token) := []
  /-- How each refresh and login ended; the newest comes first. -/
  outcomes : List (AuthOutcome Token) := []

/-- A step of a thread, or of the world around the client. -/
inductive AuthEvent (Thread Token : Type)
  | clock (elapsed : Nat)
  /-- An authorised request goes out. -/
  | request (t : Thread) (retryOnAuthFailure : Nat) (timeoutMsOverride : Int)
  | answered (t : Thread)
  | answered401 (t : Thread)
  /-- `InvalidateAccessTokenIfCurrent`. -/
  | invalidateIfCurrent (t : Thread)
  /-- `EnsureAuthenticated` ahead of a request. -/
  | ensure (t : Thread) (timeoutMsOverride : Int)
  | fastPath (t : Thread)
  | lock (t : Thread)
  | gate (t : Thread)
  | sendRefresh (t : Thread)
  | refreshAnswer (t : Thread) (answer : TokenAnswer Token)
  | refreshDone (t : Thread)
  | sendLogin (t : Thread)
  | loginAnswer (t : Thread) (answer : TokenAnswer Token)
  | loginDone (t : Thread)
  | returns (t : Thread)
  /-- `InvalidateAccessToken`, which only `OnSystemWake` calls. -/
  | systemWake
  /-- `DeferAuthenticationAfterUnresponsiveServer`. -/
  | deferAuthentication (reason : String)
deriving DecidableEq, Repr

namespace AuthClient

variable {Thread Token : Type} [DecidableEq Thread] [DecidableEq Token]

def setPhase (s : AuthClient Thread Token) (t : Thread) (phase : AuthPhase Token) :
    AuthClient Thread Token :=
  { s with phase := fun t' => if t' = t then phase else s.phase t' }

/-- `EnsureAuthenticated` returns, and with it goes the flow mutex. -/
def returnWith (s : AuthClient Thread Token) (t : Thread) (call : AuthCall Token)
    (result : AuthResult) : AuthClient Thread Token :=
  { s.setPhase t (.returned call result) with authFlowMutex := none }

/-- The cached token is still good as far as the hint says. -/
def tokenStillValid (s : AuthClient Thread Token) : Bool :=
  s.accessToken.isSome && s.now < s.accessTokenExpiry

/-- `callerHasShortBound`. -/
def hasShortBound (timeoutSeconds : Int) (call : AuthCall Token) : Bool :=
  call.timeoutMsOverride > 0 && call.timeoutMsOverride < timeoutSeconds * 1000

/-- The gate of `EnsureAuthenticated`. -/
def authGate (s : AuthClient Thread Token) (callerHasShortBound : Bool) : AuthGate :=
  decideAuthGate s.tokenStillValid
    (s.consecutiveLoginFailures > 0 && s.now < s.loginBackoffUntil)
    (isTransientCooldownBlocking
      (!isRetryDue s.transientLoginFailedAt s.now (seconds kTransientLoginRetrySeconds))
      s.transientLoginArmedByShortAttempt callerHasShortBound)

/-- What a new access token does to the state. -/
def renewed (s : AuthClient Thread Token) (call : AuthCall Token) (access : Token)
    (refresh : Option Token) : AuthClient Thread Token :=
  { s with
    accessToken := some access
    refreshToken := refresh
    accessTokenExpiry := s.now + accessTokenLifetime
    issued := access :: s.issued
    history := .renewed call.cause s.now :: s.history }

/-- The token in hand is no longer called good. -/
def invalidated (s : AuthClient Thread Token) (rejectedToken : Option (Option Token)) :
    AuthClient Thread Token :=
  { s with accessTokenExpiry := 0, history := .invalidated rejectedToken :: s.history }

/-- The cooldown a transient failure arms. -/
def armCooldown (s : AuthClient Thread Token) (callerHasShortBound : Bool) (result : AuthResult) :
    AuthClient Thread Token :=
  { s with
    lastLoginError := result.error
    transientLoginFailedAt := s.now
    transientLoginArmedByShortAttempt := callerHasShortBound
    transientLoginFailedStatus := result.httpStatus }

/-- A refresh or a login has ended. -/
def ended (s : AuthClient Thread Token) (outcome : AuthOutcome Token) : AuthClient Thread Token :=
  { s with outcomes := outcome :: s.outcomes }

/-- The end of a refresh, up to the login that may follow. -/
def afterRefresh (timeoutSeconds : Int) (s : AuthClient Thread Token) (t : Thread)
    (call : AuthCall Token) (result : AuthResult) : AuthClient Thread Token :=
  if result.ok then
    { s with transientLoginFailedStatus := -1, consecutiveLoginFailures := 0 }.returnWith t call
      { ok := true }
  else
    match classifyRefreshTokenFailure result.httpStatus with
    | .rejected => { s with refreshToken := none }.setPhase t (.loginStart call)
    | .transient => (s.armCooldown (hasShortBound timeoutSeconds call) result).returnWith t call result
    | .other => s.setPhase t (.loginStart call)

/-- The end of a login. -/
def afterLogin (timeoutSeconds : Int) (s : AuthClient Thread Token) (t : Thread)
    (call : AuthCall Token) (result : AuthResult) : AuthClient Thread Token :=
  if result.ok then
    { s with
      consecutiveLoginFailures := 0
      transientLoginFailedAt := 0
      transientLoginArmedByShortAttempt := false
      transientLoginFailedStatus := -1 }.returnWith t call { ok := true }
  else if shouldCountTowardLoginBackoff result.httpStatus then
    { s with
      lastLoginError := result.error
      consecutiveLoginFailures := s.consecutiveLoginFailures + 1
      loginBackoffUntil :=
        s.now + seconds (computeLoginBackoffSeconds (s.consecutiveLoginFailures + 1)) }.returnWith
      t call result
  else (s.armCooldown (hasShortBound timeoutSeconds call) result).returnWith t call result

/-- One step, on a client with the given `timeoutSeconds`. -/
def step (timeoutSeconds : Int) (s : AuthClient Thread Token) :
    AuthEvent Thread Token → Option (AuthClient Thread Token)
  | .clock elapsed => some { s with now := s.now + elapsed }
  | .request t retryOnAuthFailure timeoutMsOverride =>
      match s.phase t with
      | .idle =>
          some (s.setPhase t
            (.requesting ⟨s.accessToken, retryOnAuthFailure⟩ timeoutMsOverride))
      | _ => none
  | .answered t =>
      match s.phase t with
      | .requesting _ _ => some (s.setPhase t .idle)
      | _ => none
  | .answered401 t =>
      match s.phase t with
      | .requesting request timeoutMsOverride =>
          if request.retryOnAuthFailure > 0 then
            some (s.setPhase t (.rejected request timeoutMsOverride))
          else some (s.setPhase t .idle)
      | _ => none
  | .invalidateIfCurrent t =>
      match s.phase t with
      | .rejected request timeoutMsOverride =>
          let next := s.setPhase t (.entered ⟨some request, timeoutMsOverride⟩)
          if s.accessToken = request.usedToken then some (next.invalidated (some request.usedToken))
          else some next
      | _ => none
  | .ensure t timeoutMsOverride =>
      match s.phase t with
      | .idle => some (s.setPhase t (.entered ⟨none, timeoutMsOverride⟩))
      | _ => none
  | .fastPath t =>
      match s.phase t with
      | .entered call =>
          if s.tokenStillValid then some (s.setPhase t (.returned call { ok := true }))
          else some (s.setPhase t (.waiting call))
      | _ => none
  | .lock t =>
      match s.phase t, s.authFlowMutex with
      | .waiting call, none => some { s.setPhase t (.locked call) with authFlowMutex := some t }
      | _, _ => none
  | .gate t =>
      match s.phase t with
      | .locked call =>
          match s.authGate (hasShortBound timeoutSeconds call) with
          | .haveToken => some (s.returnWith t call { ok := true })
          | .loginBackoff => some (s.returnWith t call { ok := false, error := s.lastLoginError })
          | .transientCooldown =>
              some (s.returnWith t call
                { ok := false, httpStatus := s.transientLoginFailedStatus
                  error := s.lastLoginError })
          | .proceed =>
              some (s.setPhase t
                (if s.refreshToken.isSome then .refreshStart call else .loginStart call))
      | _ => none
  | .sendRefresh t =>
      match s.phase t with
      | .refreshStart call =>
          if s.refreshToken.isSome then some (s.setPhase t (.refreshSent call))
          else
            some (s.setPhase t (.refreshAnswered call
              { ok := false, httpStatus := 0, error := "No refresh token available" }))
      | _ => none
  | .refreshAnswer t answer =>
      match s.phase t, answer with
      | .refreshSent call, .tokens access refresh =>
          if access ∉ s.issued then
            -- a refresh token that is missing or empty is not a rotated one
            let rotated := (refresh.getD none).or s.refreshToken
            some ((s.renewed call access rotated).setPhase t (.refreshAnswered call { ok := true }))
          else none
      | .refreshSent call, .failed httpStatus error =>
          some (s.setPhase t (.refreshAnswered call { ok := false, httpStatus, error }))
      | _, _ => none
  | .refreshDone t =>
      match s.phase t with
      | .refreshAnswered call result =>
          some ((s.afterRefresh timeoutSeconds t call result).ended
            { isLogin := false, call, result, time := s.now })
      | _ => none
  | .sendLogin t =>
      match s.phase t with
      | .loginStart call => some (s.setPhase t (.loginSent call))
      | _ => none
  | .loginAnswer t answer =>
      match s.phase t, answer with
      | .loginSent call, .tokens access refresh =>
          if access ∉ s.issued then
            some ((s.renewed call access (refresh.getD s.refreshToken)).setPhase t
              (.loginAnswered call { ok := true }))
          else none
      | .loginSent call, .failed httpStatus error =>
          some (s.setPhase t (.loginAnswered call { ok := false, httpStatus, error }))
      | _, _ => none
  | .loginDone t =>
      match s.phase t with
      | .loginAnswered call result =>
          some ((s.afterLogin timeoutSeconds t call result).ended
            { isLogin := true, call, result, time := s.now })
      | _ => none
  | .returns t =>
      match s.phase t with
      | .returned ⟨some request, timeoutMsOverride⟩ result =>
          if result.ok then
            some (s.setPhase t
              (.requesting ⟨s.accessToken, request.retryOnAuthFailure - 1⟩ timeoutMsOverride))
          else some (s.setPhase t .idle)
      | .returned ⟨none, _⟩ _ => some (s.setPhase t .idle)
      | _ => none
  | .systemWake => some (s.invalidated none)
  | .deferAuthentication reason =>
      if s.authFlowMutex = none then
        if s.accessToken.isSome then some s
        else
          some { s with
            transientLoginFailedAt := s.now
            transientLoginArmedByShortAttempt := false
            transientLoginFailedStatus := 0
            lastLoginError := reason }
      else none

/-- When time passes nothing else changes. -/
theorem step_clock (timeoutSeconds : Int) (s : AuthClient Thread Token) (elapsed : Nat) :
    s.step timeoutSeconds (.clock elapsed) = some { s with now := s.now + elapsed } := by
  simp only [step]

/-- A wake takes the token away, whoever holds the mutex. -/
theorem step_systemWake (timeoutSeconds : Int) (s : AuthClient Thread Token) :
    s.step timeoutSeconds .systemWake = some (s.invalidated none) := by
  simp only [step]

/-- A client that has never authenticated; the clock has run for a while. -/
def init (uptime : Nat) : AuthClient Thread Token where
  now := uptime + 1
  phase := fun _ => .idle

/-- A thread whose refresh or login is out. -/
def Sending (s : AuthClient Thread Token) (t : Thread) : Prop :=
  ∃ call, s.phase t = .refreshSent call ∨ s.phase t = .loginSent call

/-- The step sends a refresh or a login, in the given call. -/
def Sends (s : AuthClient Thread Token) (e : AuthEvent Thread Token) (call : AuthCall Token) :
    Prop :=
  (∃ t, e = .sendRefresh t ∧ s.phase t = .refreshStart call) ∨
    ∃ t, e = .sendLogin t ∧ s.phase t = .loginStart call

end AuthClient

end DispatcharrPvr
