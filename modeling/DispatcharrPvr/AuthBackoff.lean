import DispatcharrPvr.ConnectionReport

/-!
# AuthBackoff

The decisions of `AuthBackoff.h` that the authentication rests on.
-/

namespace DispatcharrPvr

/-- `ComputeLoginBackoffSeconds`. -/
def computeLoginBackoffSeconds (consecutiveFailures : Nat) : Nat :=
  let kInitialSeconds := 30
  let kMaxSeconds := 1800
  if consecutiveFailures = 0 then 0
  else
    let shift := min (consecutiveFailures - 1) 10
    min (kInitialSeconds <<< shift) kMaxSeconds

/-- `RefreshTokenFailure`. -/
inductive RefreshTokenFailure
  | rejected
  | transient
  | other
deriving DecidableEq, Repr

/-- `ClassifyRefreshTokenFailure`. -/
def classifyRefreshTokenFailure (httpCode : Int) : RefreshTokenFailure :=
  if httpCode = 401 ∨ httpCode = 403 then .rejected
  else if httpCode = 0 ∨ (httpCode ≥ 500 ∧ httpCode < 600) then .transient
  else .other

/-- `IsTransientCooldownBlocking`. -/
def isTransientCooldownBlocking (cooldownActive armedByShortAttempt callerHasShortBound : Bool) :
    Bool :=
  cooldownActive && (!armedByShortAttempt || callerHasShortBound)

/-- `AuthGate`. -/
inductive AuthGate
  | haveToken
  | loginBackoff
  | transientCooldown
  | proceed
deriving DecidableEq, Repr

/-- `DecideAuthGate`. -/
def decideAuthGate (tokenStillValid loginBackoffActive transientCooldownBlocking : Bool) :
    AuthGate :=
  if tokenStillValid then .haveToken
  else if loginBackoffActive then .loginBackoff
  else if transientCooldownBlocking then .transientCooldown
  else .proceed

/-- A call goes on exactly where nothing turns it away. -/
theorem decideAuthGate_eq_proceed_iff {valid backoff cooldown : Bool} :
    decideAuthGate valid backoff cooldown = .proceed ↔
      valid = false ∧ backoff = false ∧ cooldown = false := by
  cases valid <;> cases backoff <;> cases cooldown <;> decide

end DispatcharrPvr
