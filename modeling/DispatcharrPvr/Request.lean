/-!
# Request

How a request to the Dispatcharr server ends, as far as the add-on and the
server are concerned: the add-on is told a success or a failure, and a write
that failed for the add-on may still have reached the server.
-/

namespace DispatcharrPvr

/-- How a write to the server ended. -/
inductive RequestOutcome
  | ok
  | failedLanded
  | failedNotLanded
deriving DecidableEq, Repr

namespace RequestOutcome

/-- What the add-on is told. -/
def isOk : RequestOutcome → Bool
  | .ok => true
  | _ => false

/-- Whether the server took the write. -/
def landed : RequestOutcome → Bool
  | .failedNotLanded => false
  | _ => true

theorem landed_of_isOk {o : RequestOutcome} (h : o.isOk = true) : o.landed = true := by
  cases o with
  | ok => rfl
  | failedLanded => contradiction
  | failedNotLanded => contradiction

end RequestOutcome

end DispatcharrPvr
