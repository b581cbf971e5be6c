import DispatcharrPvr.Lib.Runs
import Mathlib.Algebra.BigOperators.Group.List.Defs
import Mathlib.Algebra.GroupWithZero.Nat
import Mathlib.Data.Rat.Defs

/-!
# TimeshiftBuffer.ConnectionSlots

The connections that a worker's file server takes at once (`_BufferHTTPServer` of
`plugin.py`): a slot for each client's connection and one of all, taken when it is
accepted and given back when its thread ends, with the threads in any order.
No more are taken than there are, none is lost, and no refusal is left out of the
log (`connection_slots`).

A client is what `_client_key` makes of an address.  A step is one look at what
the threads share.
-/

namespace DispatcharrPvr

namespace TimeshiftBuffer

namespace ConnectionSlots

open Runs

/-- `max_connections`. -/
def maxConnections : Nat := 256

/-- `max_connections_per_client`. -/
def maxConnectionsPerClient : Nat := 64

/-- `refusal_log_interval_seconds`. -/
def refusalLogIntervalSeconds : Rat := 30

/-- How far `process_request`, then its thread, has come with a connection. -/
inductive Phase where
  | accepted
  /-- It has its client's slot. -/
  | counted
  /-- No other slot was free: the client's is given back. -/
  | full
  /-- The refusal is to be logged. -/
  | refused
  /-- It has both slots, its thread is to be started. -/
  | admitted
  | handling
  /-- The thread has ended, or could not be started: both slots are given back. -/
  | releasing
  | leaving
  | closed (wasRefused : Bool)
deriving DecidableEq, Repr

namespace Phase

/-- It has its client's slot. -/
def hasClientSlot : Phase → Bool
  | counted | full | admitted | handling | releasing | leaving => true
  | _ => false

/-- It has one of all slots. -/
def hasSlot : Phase → Bool
  | admitted | handling | releasing => true
  | _ => false

/-- Its refusal has been logged. -/
def isLogged : Phase → Bool
  | closed wasRefused => wasRefused
  | _ => false

def isClosed : Phase → Bool
  | closed _ => true
  | _ => false

end Phase

variable {Client : Type} [DecidableEq Client]

/-! ## the slots -/

/-- `_acquire_client_slot`, nothing where it returns false. -/
def acquireClientSlot (clientCounts : Client → Option Nat) (client : Client) :
    Option (Client → Option Nat) :=
  if maxConnectionsPerClient ≤ (clientCounts client).getD 0 then none
  else some fun c => if c = client then some ((clientCounts client).getD 0 + 1) else clientCounts c

/-- `_release_client_slot`. -/
def releaseClientSlot (clientCounts : Client → Option Nat) (client : Client) :
    Client → Option Nat :=
  let remaining := (clientCounts client).getD 0 - 1
  fun c =>
    if c = client then (if 0 < remaining then some remaining else none) else clientCounts c

/-- `BoundedSemaphore.release`, nothing where it raises. -/
def releaseSlot (slots : Nat) : Option Nat :=
  if slots < maxConnections then some (slots + 1) else none

theorem acquireClientSlot_eq_none_iff {clientCounts : Client → Option Nat} {client : Client} :
    acquireClientSlot clientCounts client = none ↔
      maxConnectionsPerClient ≤ (clientCounts client).getD 0 := by
  simp [acquireClientSlot]

/-- **Spec of `_acquire_client_slot`**: one more for the client. -/
theorem acquireClientSlot_spec {clientCounts counts' : Client → Option Nat} {client : Client}
    (h : acquireClientSlot clientCounts client = some counts') :
    (clientCounts client).getD 0 < maxConnectionsPerClient ∧
      ∀ c, (counts' c).getD 0 = (clientCounts c).getD 0 + (if client = c then 1 else 0) ∧
        (clientCounts c ≠ some 0 → counts' c ≠ some 0) := by
  unfold acquireClientSlot at h
  split at h
  · contradiction
  · next hfew =>
      obtain rfl := Option.some.inj h
      refine ⟨Nat.lt_of_not_le hfew, fun c => ?_⟩
      by_cases hc : c = client
      · simp [hc]
      · simp [hc, Ne.symm hc]

/-- **Spec of `_release_client_slot`**: one less for the client. -/
theorem releaseClientSlot_spec {clientCounts : Client → Option Nat} {client : Client}
    (h : 0 < (clientCounts client).getD 0) (c : Client) :
    (releaseClientSlot clientCounts client c).getD 0 + (if client = c then 1 else 0) =
        (clientCounts c).getD 0 ∧
      (clientCounts c ≠ some 0 → releaseClientSlot clientCounts client c ≠ some 0) := by
  unfold releaseClientSlot
  by_cases hc : c = client
  · subst hc
    by_cases hmore : 0 < (clientCounts c).getD 0 - 1
    · simp only [if_true, if_pos hmore, Option.getD_some, ne_eq, Option.some.injEq]
      omega
    · simp only [if_true, if_neg hmore, Option.getD_none]
      refine ⟨by omega, fun _ => by simp⟩
  · simp [hc, Ne.symm hc]

/-! ## the server -/

/-- What the threads of a file server share, and its connections in the order they
came. -/
structure Server (Client : Type) where
  /-- The value of `_connection_slots`. -/
  slots : Nat := maxConnections
  clientCounts : Client → Option Nat := fun _ => none
  connections : List (Client × Phase) := []
  lastRefusalLog : Option Rat := none
  refusalsSinceLog : Nat := 0
  /-- The refusals that were logged, the latest first. -/
  reports : List (Rat × Nat) := []
  /-- A slot was given back that was not taken. -/
  raised : Bool := false

/-- What a step meets. -/
structure Turn where
  /-- Whether a thread can be started. -/
  starts : Bool := true
  /-- `time.monotonic()`. -/
  now : Rat := 0
deriving DecidableEq, Repr

inductive Event (Client : Type) where
  | connect (client : Client)
  | turn (i : Nat) (turn : Turn)
deriving DecidableEq, Repr

namespace Server

omit [DecidableEq Client] in
/-- A connection comes further. -/
def put (s : Server Client) (i : Nat) (client : Client) (phase : Phase) : Server Client :=
  { s with connections := s.connections.set i (client, phase) }

omit [DecidableEq Client] in
/-- `_log_refusal`. -/
def logRefusal (s : Server Client) (now : Rat) : Server Client :=
  let count := s.refusalsSinceLog + 1
  match s.lastRefusalLog with
  | some last =>
      if now - last < refusalLogIntervalSeconds then { s with refusalsSinceLog := count }
      else
        { s with refusalsSinceLog := 0, lastRefusalLog := some now,
                 reports := (now, count) :: s.reports }
  | none =>
      { s with refusalsSinceLog := 0, lastRefusalLog := some now,
               reports := (now, count) :: s.reports }

/-- The next step of a connection; none is left of one that is closed. -/
def advance (s : Server Client) (i : Nat) (client : Client) (turn : Turn) :
    Phase → Option (Server Client)
  | .accepted =>
      match acquireClientSlot s.clientCounts client with
      | none => some (s.put i client .refused)
      | some counts => some { s.put i client .counted with clientCounts := counts }
  | .counted =>
      if s.slots = 0 then some (s.put i client .full)
      else some { s.put i client .admitted with slots := s.slots - 1 }
  | .full =>
      some
        { s.put i client .refused with
          clientCounts := releaseClientSlot s.clientCounts client }
  | .refused => some ((s.logRefusal turn.now).put i client (.closed true))
  | .admitted =>
      if turn.starts then some (s.put i client .handling) else some (s.put i client .releasing)
  | .handling => some (s.put i client .releasing)
  | .releasing =>
      match releaseSlot s.slots with
      | some slots => some { s.put i client .leaving with slots }
      | none => some { s.put i client (.closed false) with raised := true }
  | .leaving =>
      some
        { s.put i client (.closed false) with
          clientCounts := releaseClientSlot s.clientCounts client }
  | .closed _ => none

/-- A step of the server. -/
def step (s : Server Client) : Event Client → Option (Server Client)
  | .connect client => some { s with connections := s.connections ++ [(client, .accepted)] }
  | .turn i turn =>
      match s.connections[i]? with
      | none => none
      | some (client, phase) => s.advance i client turn phase

/-! ## who has a slot -/

/-- The connections of a client that have its slot. -/
def clientHeld (s : Server Client) (client : Client) : Nat :=
  s.connections.countP fun connection => connection.1 = client && connection.2.hasClientSlot

omit [DecidableEq Client] in
/-- The connections that have one of all slots. -/
def held (s : Server Client) : Nat := s.connections.countP fun connection => connection.2.hasSlot

omit [DecidableEq Client] in
/-- The connections whose refusal was logged. -/
def logged (s : Server Client) : Nat := s.connections.countP fun connection => connection.2.isLogged

end Server

/-! ## what a step changes -/

/-- What a connection counts for. -/
def amount (b : Bool) : Nat := if b then 1 else 0

section Put

variable {s : Server Client} {i : Nat} {client : Client} {phase : Phase}

omit [DecidableEq Client] in
theorem countP_set_add {p : Client × Phase → Bool} {connections : List (Client × Phase)}
    (h : connections[i]? = some (client, phase)) (phase' : Phase) :
    (connections.set i (client, phase')).countP p + amount (p (client, phase)) =
      connections.countP p + amount (p (client, phase')) := by
  obtain ⟨hlt, heq⟩ := List.getElem?_eq_some_iff.mp h
  have hset := List.countP_set (p := p) (a := (client, phase')) hlt
  have hpos : p (client, phase) = true → 0 < connections.countP p := fun hp =>
    List.countP_pos_iff.mpr ⟨_, heq ▸ List.getElem_mem hlt, hp⟩
  rw [heq] at hset
  rw [hset, amount, amount]
  by_cases hp : p (client, phase) = true
  · have hsome := hpos hp
    rw [if_pos hp]
    omega
  · rw [if_neg hp]
    omega

theorem clientHeld_put (h : s.connections[i]? = some (client, phase)) (phase' : Phase)
    (c : Client) :
    (s.put i client phase').clientHeld c + (if client = c then amount phase.hasClientSlot else 0) =
      s.clientHeld c + (if client = c then amount phase'.hasClientSlot else 0) := by
  have hset := countP_set_add (p := fun connection =>
    connection.1 = c && connection.2.hasClientSlot) h phase'
  by_cases hc : client = c
  · simpa [Server.clientHeld, Server.put, hc] using hset
  · simpa [Server.clientHeld, Server.put, hc, amount] using hset

omit [DecidableEq Client] in
theorem held_put (h : s.connections[i]? = some (client, phase)) (phase' : Phase) :
    (s.put i client phase').held + amount phase.hasSlot = s.held + amount phase'.hasSlot :=
  countP_set_add h phase'

omit [DecidableEq Client] in
theorem logged_put (h : s.connections[i]? = some (client, phase)) (phase' : Phase) :
    (s.put i client phase').logged + amount phase.isLogged = s.logged + amount phase'.isLogged :=
  countP_set_add h phase'

end Put

/-! ## the invariant -/

/-- The reports are as far apart as they should be, the latest first. -/
def Spaced : List (Rat × Nat) → Prop :=
  List.IsChain fun later earlier => refusalLogIntervalSeconds ≤ later.1 - earlier.1

/-- What holds of a server throughout. -/
structure Inv (s : Server Client) : Prop where
  slots : s.slots + s.held = maxConnections
  counts : ∀ c, (s.clientCounts c).getD 0 = s.clientHeld c
  /-- A client without a connection is not listed. -/
  listed : ∀ c, s.clientCounts c ≠ some 0
  within : ∀ c, s.clientHeld c ≤ maxConnectionsPerClient
  raised : s.raised = false
  logged : (s.reports.map Prod.snd).sum + s.refusalsSinceLog = s.logged
  last : s.lastRefusalLog = s.reports.head?.map Prod.fst
  spaced : Spaced s.reports

namespace Inv

omit [DecidableEq Client] in
theorem logRefusal_kept (s : Server Client) (now : Rat) :
    (s.logRefusal now).slots = s.slots ∧ (s.logRefusal now).clientCounts = s.clientCounts ∧
      (s.logRefusal now).connections = s.connections ∧ (s.logRefusal now).raised = s.raised := by
  unfold Server.logRefusal
  split
  · split <;> exact ⟨rfl, rfl, rfl, rfl⟩
  · exact ⟨rfl, rfl, rfl, rfl⟩

omit [DecidableEq Client] in
theorem logRefusal_spec {s : Server Client} (hlast : s.lastRefusalLog = s.reports.head?.map Prod.fst)
    (hspaced : Spaced s.reports) (now : Rat) :
    ((s.logRefusal now).reports.map Prod.snd).sum + (s.logRefusal now).refusalsSinceLog =
        (s.reports.map Prod.snd).sum + s.refusalsSinceLog + 1 ∧
      (s.logRefusal now).lastRefusalLog = (s.logRefusal now).reports.head?.map Prod.fst ∧
      Spaced (s.logRefusal now).reports := by
  unfold Server.logRefusal
  cases hreports : s.reports with
  | nil =>
      rw [hreports] at hlast
      rw [hlast]
      exact ⟨by simp, rfl, .singleton _⟩
  | cons report reports =>
      rw [hreports] at hlast hspaced
      rw [hlast]
      dsimp only [List.head?_cons, Option.map_some]
      split
      · exact ⟨by simp; omega, rfl, hspaced⟩
      · next hlong =>
          refine ⟨by simp; omega, rfl, ?_⟩
          exact List.isChain_cons_cons.mpr ⟨Rat.not_lt.mp hlong, hspaced⟩

variable {s : Server Client} {i : Nat} {client : Client} {phase : Phase}

/-- A step of a connection that keeps both counts in step with who has a slot. -/
theorem put (h : Inv s) (hi : s.connections[i]? = some (client, phase)) {phase' : Phase}
    {s' : Server Client} (hconnections : s'.connections = (s.put i client phase').connections)
    (hslots : s'.slots + amount phase'.hasSlot = s.slots + amount phase.hasSlot)
    (hcounts : ∀ c, (s'.clientCounts c).getD 0 +
        (if client = c then amount phase.hasClientSlot else 0) =
      (s.clientCounts c).getD 0 + (if client = c then amount phase'.hasClientSlot else 0))
    (hlisted : ∀ c, s'.clientCounts c ≠ some 0)
    (hwithin : (s'.clientCounts client).getD 0 ≤ maxConnectionsPerClient)
    (hraised : s'.raised = false)
    (hlogged : (s'.reports.map Prod.snd).sum + s'.refusalsSinceLog + amount phase.isLogged =
      (s.reports.map Prod.snd).sum + s.refusalsSinceLog + amount phase'.isLogged)
    (hlast : s'.lastRefusalLog = s'.reports.head?.map Prod.fst) (hspaced : Spaced s'.reports) :
    Inv s' := by
  have hclient : ∀ c, s'.clientHeld c = (s.put i client phase').clientHeld c := fun c => by
    rw [Server.clientHeld, hconnections, Server.clientHeld]
  have hheld : s'.held = (s.put i client phase').held := by
    rw [Server.held, hconnections, Server.held]
  have hall : s'.logged = (s.put i client phase').logged := by
    rw [Server.logged, hconnections, Server.logged]
  have hcount : ∀ c, (s'.clientCounts c).getD 0 = s'.clientHeld c := fun c => by
    have hput := clientHeld_put hi phase' c
    have hsame := h.counts c
    have hmoved := hcounts c
    rw [hclient]
    omega
  refine { slots := ?_, counts := hcount, listed := hlisted, within := fun c => ?_,
           raised := hraised, logged := ?_, last := hlast, spaced := hspaced }
  · have hput := held_put hi phase'
    have hsame := h.slots
    omega
  · by_cases hc : client = c
    · rw [← hcount, ← hc]
      exact hwithin
    · have hput := clientHeld_put hi phase' c
      rw [if_neg hc, if_neg hc] at hput
      have hle := h.within c
      rw [hclient]
      omega
  · have hput := logged_put hi phase'
    have hsame := h.logged
    omega

omit [DecidableEq Client] in
theorem init [DecidableEq Client] : Inv ({} : Server Client) where
  slots := rfl
  counts _ := rfl
  listed _ := by simp
  within _ := Nat.zero_le _
  raised := rfl
  logged := rfl
  last := rfl
  spaced := .nil

theorem kept (h : Inv s) (client : Client) :
    (s.clientCounts client).getD 0 ≤ maxConnectionsPerClient := by
  rw [h.counts]
  exact h.within client

/-- A connection with its client's slot is counted. -/
theorem counted_pos (h : Inv s) (hi : s.connections[i]? = some (client, phase))
    (hslot : phase.hasClientSlot = true) : 0 < (s.clientCounts client).getD 0 := by
  rw [h.counts, Server.clientHeld, List.countP_pos_iff]
  exact ⟨_, List.mem_of_getElem? hi, by simpa using hslot⟩

/-- Where a connection has one of all slots, one can be given back. -/
theorem slots_lt (h : Inv s) (hi : s.connections[i]? = some (client, phase))
    (hslot : phase.hasSlot = true) : s.slots < maxConnections := by
  have hsome : 0 < s.held := by
    rw [Server.held, List.countP_pos_iff]
    exact ⟨_, List.mem_of_getElem? hi, hslot⟩
  have hsame := h.slots
  omega

/-- A step that takes one of all slots, gives it back, or neither. -/
theorem put_slots (h : Inv s) (hi : s.connections[i]? = some (client, phase)) {phase' : Phase}
    {slots : Nat} (hslots : slots + amount phase'.hasSlot = s.slots + amount phase.hasSlot)
    (hclient : phase'.hasClientSlot = phase.hasClientSlot)
    (hlogged : phase'.isLogged = phase.isLogged) :
    Inv { s.put i client phase' with slots } :=
  h.put hi rfl hslots (fun c => by rw [hclient]; rfl) h.listed (h.kept client) h.raised
    (by rw [hlogged]; rfl) h.last h.spaced

/-- A step that takes the client's slot. -/
theorem put_acquired (h : Inv s) (hi : s.connections[i]? = some (client, .accepted))
    {counts : Client → Option Nat}
    (hcounts : acquireClientSlot s.clientCounts client = some counts) :
    Inv { s.put i client .counted with clientCounts := counts } := by
  obtain ⟨hfew, hspec⟩ := acquireClientSlot_spec hcounts
  refine h.put hi rfl rfl (fun c => ?_) (fun c => (hspec c).2 (h.listed c)) ?_ h.raised rfl
    h.last h.spaced
  · have hmore := (hspec c).1
    by_cases hc : client = c <;> simp_all [amount, Phase.hasClientSlot]
  · have hmore := (hspec client).1
    rw [if_pos rfl] at hmore
    show (counts client).getD 0 ≤ maxConnectionsPerClient
    omega

/-- A step that gives the client's slot back. -/
theorem put_released (h : Inv s) (hi : s.connections[i]? = some (client, phase)) {phase' : Phase}
    (hslot : phase.hasClientSlot = true) (hslot' : phase'.hasClientSlot = false)
    (hslots : phase'.hasSlot = phase.hasSlot) (hlogged : phase'.isLogged = phase.isLogged) :
    Inv { s.put i client phase' with clientCounts := releaseClientSlot s.clientCounts client } := by
  have hspec := releaseClientSlot_spec (h.counted_pos hi hslot)
  refine h.put hi rfl (by rw [hslots]; rfl) (fun c => ?_) (fun c => (hspec c).2 (h.listed c)) ?_
    h.raised (by rw [hlogged]; rfl) h.last h.spaced
  · have hless := (hspec c).1
    by_cases hc : client = c <;> simp_all [amount]
  · -- one less is no more
    have hless := (hspec client).1
    have hkept := h.kept client
    show (releaseClientSlot s.clientCounts client client).getD 0 ≤ maxConnectionsPerClient
    omega

/-- A step that logs a refusal. -/
theorem put_logged (h : Inv s) (hi : s.connections[i]? = some (client, .refused)) (now : Rat) :
    Inv ((s.logRefusal now).put i client (.closed true)) := by
  obtain ⟨hsum, hlast, hspaced⟩ := logRefusal_spec h.last h.spaced now
  obtain ⟨hslots, hcounts, hconnections, hraised⟩ := logRefusal_kept s now
  have hput : ((s.logRefusal now).put i client (.closed true)).connections =
      (s.put i client (.closed true)).connections := by
    show (s.logRefusal now).connections.set i _ = _
    rw [hconnections]
    rfl
  refine h.put hi hput ?_ (fun c => ?_) (fun c => ?_) ?_ ?_ ?_ hlast hspaced
  · exact congrArg (· + 0) hslots
  · show ((s.logRefusal now).clientCounts c).getD 0 + _ = _
    rw [hcounts]
    rfl
  · show (s.logRefusal now).clientCounts c ≠ some 0
    rw [hcounts]
    exact h.listed c
  · show ((s.logRefusal now).clientCounts client).getD 0 ≤ _
    rw [hcounts]
    exact h.kept client
  · exact hraised.trans h.raised
  · exact hsum

/-- A step of a connection. -/
theorem advance (h : Inv s) (hi : s.connections[i]? = some (client, phase)) {turn : Turn}
    {s' : Server Client} (hstep : s.advance i client turn phase = some s') : Inv s' := by
  cases phase with
  | accepted =>
      rw [Server.advance] at hstep
      split at hstep
      · obtain rfl := Option.some.inj hstep
        exact h.put_slots hi rfl rfl rfl
      · next counts hcounts =>
          obtain rfl := Option.some.inj hstep
          exact h.put_acquired hi hcounts
  | counted =>
      rw [Server.advance] at hstep
      split at hstep
      · obtain rfl := Option.some.inj hstep
        exact h.put_slots hi rfl rfl rfl
      · next hsome =>
          obtain rfl := Option.some.inj hstep
          have hone : s.slots - 1 + 1 = s.slots := by omega
          exact h.put_slots hi hone rfl rfl
  | full =>
      obtain rfl := Option.some.inj hstep
      exact h.put_released hi rfl rfl rfl rfl
  | refused =>
      obtain rfl := Option.some.inj hstep
      exact h.put_logged hi turn.now
  | admitted =>
      rw [Server.advance] at hstep
      split at hstep <;> obtain rfl := Option.some.inj hstep
      · exact h.put_slots hi rfl rfl rfl
      · exact h.put_slots hi rfl rfl rfl
  | handling =>
      obtain rfl := Option.some.inj hstep
      exact h.put_slots hi rfl rfl rfl
  | releasing =>
      rw [Server.advance, releaseSlot, if_pos (h.slots_lt hi rfl)] at hstep
      obtain rfl := Option.some.inj hstep
      exact h.put_slots hi rfl rfl rfl
  | leaving =>
      obtain rfl := Option.some.inj hstep
      exact h.put_released hi rfl rfl rfl rfl
  | closed wasRefused => cases hstep

/-- A connection that comes has no slot yet. -/
theorem connect (h : Inv s) (client : Client) :
    Inv { s with connections := s.connections ++ [(client, .accepted)] } := by
  have hclient : ∀ c, Server.clientHeld { s with
      connections := s.connections ++ [(client, .accepted)] } c = s.clientHeld c := fun c => by
    simp [Server.clientHeld, Phase.hasClientSlot]
  have hheld : Server.held { s with
      connections := s.connections ++ [(client, .accepted)] } = s.held := by
    simp [Server.held, Phase.hasSlot]
  have hlogged : Server.logged { s with
      connections := s.connections ++ [(client, .accepted)] } = s.logged := by
    simp [Server.logged, Phase.isLogged]
  exact
    { slots := by rw [hheld]; exact h.slots
      counts := fun c => by rw [hclient]; exact h.counts c
      listed := h.listed
      within := fun c => by rw [hclient]; exact h.within c
      raised := h.raised
      logged := by rw [hlogged]; exact h.logged
      last := h.last
      spaced := h.spaced }

theorem step {e : Event Client} {s' : Server Client} (h : Inv s) (hstep : s.step e = some s') :
    Inv s' := by
  cases e with
  | connect client =>
      obtain rfl := Option.some.inj hstep
      exact h.connect client
  | turn i turn =>
      rw [Server.step] at hstep
      split at hstep
      · contradiction
      · next client phase hi => exact h.advance hi hstep

/-- A client whose connections have no slot is not listed. -/
theorem clientCounts_eq_none (h : Inv s) {c : Client} (hnone : s.clientHeld c = 0) :
    s.clientCounts c = none := by
  have hcount := h.counts c
  have hlisted := h.listed c
  cases hfound : s.clientCounts c with
  | none => rfl
  | some n =>
      rw [hfound] at hcount hlisted
      rw [hnone] at hcount
      exact absurd (congrArg some hcount) hlisted

end Inv

/-! ## over whole runs -/

/-- A connection is refused for its client exactly when that has all its slots. -/
theorem refused_iff {s s' : Server Client} (h : Inv s) {i : Nat} {client : Client} {turn : Turn}
    (hi : s.connections[i]? = some (client, .accepted)) (hstep : s.step (.turn i turn) = some s') :
    s'.connections[i]? = some (client, .refused) ↔
      s.clientHeld client = maxConnectionsPerClient := by
  have hlt : i < s.connections.length := (List.getElem?_eq_some_iff.mp hi).1
  have hle := h.within client
  rw [← h.counts client] at hle ⊢
  simp only [Server.step, hi, Server.advance] at hstep
  split at hstep
  · next hnone =>
      obtain rfl := Option.some.inj hstep
      rw [acquireClientSlot_eq_none_iff] at hnone
      simp only [Server.put, List.getElem?_set_self hlt, true_iff]
      omega
  · next counts hcounts =>
      obtain rfl := Option.some.inj hstep
      have hfew := (acquireClientSlot_spec hcounts).1
      simp only [Server.put, List.getElem?_set_self hlt, Option.some.injEq, Prod.mk.injEq, true_and,
        reduceCtorEq, false_iff]
      omega

/-- A connection is turned away for all of them exactly when none is free. -/
theorem full_iff {s s' : Server Client} (h : Inv s) {i : Nat} {client : Client} {turn : Turn}
    (hi : s.connections[i]? = some (client, .counted)) (hstep : s.step (.turn i turn) = some s') :
    s'.connections[i]? = some (client, .full) ↔ s.held = maxConnections := by
  have hlt : i < s.connections.length := (List.getElem?_eq_some_iff.mp hi).1
  have hall := h.slots
  simp only [Server.step, hi, Server.advance] at hstep
  split at hstep
  · obtain rfl := Option.some.inj hstep
    simp only [Server.put, List.getElem?_set_self hlt, true_iff]
    omega
  · obtain rfl := Option.some.inj hstep
    simp only [Server.put, List.getElem?_set_self hlt, Option.some.injEq, Prod.mk.injEq, true_and,
      reduceCtorEq, false_iff]
    omega

omit [DecidableEq Client] in
/-- No connection that is closed has a slot. -/
theorem no_slot_of_closed {s : Server Client}
    (hclosed : ∀ connection ∈ s.connections, connection.2.isClosed = true)
    {connection : Client × Phase} (hmem : connection ∈ s.connections) :
    connection.2.hasSlot = false ∧ connection.2.hasClientSlot = false := by
  have hone := hclosed connection hmem
  cases hphase : connection.2 <;> rw [hphase] at hone <;>
    first | exact ⟨rfl, rfl⟩ | exact absurd hone (by decide)

/-- **The slots of a file server**: whatever comes and whichever thread is first,
no more connections than there are slots have one, neither of all nor of a
client's, and none is given back twice; a connection is refused only when there
is none; once all are closed every slot is free again and no client is listed;
and the log's reports, each long enough after the one before, count every
refusal but those since the last. -/
theorem connection_slots {es : List (Event Client)} {s : Server Client}
    (hrun : run Server.step {} es = some s) :
    (s.held ≤ maxConnections ∧ (∀ c, s.clientHeld c ≤ maxConnectionsPerClient) ∧
      s.raised = false) ∧
    (∀ i client turn s', s.step (.turn i turn) = some s' →
      (s.connections[i]? = some (client, .accepted) →
        (s'.connections[i]? = some (client, .refused) ↔
          s.clientHeld client = maxConnectionsPerClient)) ∧
      (s.connections[i]? = some (client, .counted) →
        (s'.connections[i]? = some (client, .full) ↔ s.held = maxConnections))) ∧
    ((∀ connection ∈ s.connections, connection.2.isClosed = true) →
      s.slots = maxConnections ∧ ∀ c, s.clientCounts c = none) ∧
    (s.reports.map Prod.snd).sum + s.refusalsSinceLog = s.logged ∧ Spaced s.reports := by
  have hinv : Inv s := invariant (fun h hstep => h.step hstep) Inv.init hrun
  have hslots := hinv.slots
  refine ⟨⟨by omega, hinv.within, hinv.raised⟩, fun i client turn s' hstep =>
    ⟨fun hi => refused_iff hinv hi hstep, fun hi => full_iff hinv hi hstep⟩, fun hclosed => ?_,
    hinv.logged, hinv.spaced⟩
  have hheld : s.held = 0 := List.countP_eq_zero.mpr fun connection hmem => by
    simp [(no_slot_of_closed hclosed hmem).1]
  refine ⟨by omega, fun c => hinv.clientCounts_eq_none (List.countP_eq_zero.mpr ?_)⟩
  intro connection hmem
  simp [(no_slot_of_closed hclosed hmem).2]

/-- As many connections of one client as it may have, and one more. -/
def oneTooMany : List (Event Nat) :=
  (List.range 64).flatMap (fun i => [.connect 7, .turn i {}]) ++ [.connect 7]

theorem connection_slots_oneTooMany : ∃ s s' : Server Nat,
    run Server.step {} oneTooMany = some s ∧ s.step (.turn 64 {}) = some s' ∧
      s'.connections[64]? = some (7, .refused) := by
  have hsome : (run Server.step ({} : Server Nat) oneTooMany).isSome := by decide +kernel
  have hconnection : ((run Server.step ({} : Server Nat) oneTooMany).get
      hsome).connections[64]? = some (7, .accepted) := by decide +kernel +revert
  have hheld : ((run Server.step ({} : Server Nat) oneTooMany).get hsome).clientHeld 7 =
      maxConnectionsPerClient := by decide +kernel +revert
  have hturn : (((run Server.step ({} : Server Nat) oneTooMany).get hsome).step
      (.turn 64 {})).isSome := by decide +kernel +revert
  have hrun : run Server.step {} oneTooMany =
      some ((run Server.step ({} : Server Nat) oneTooMany).get hsome) :=
    (Option.some_get hsome).symm
  have hstep := (Option.some_get hturn).symm
  exact ⟨_, _, hrun, hstep,
    (((connection_slots hrun).2.1 64 7 {} _ hstep).1 hconnection).mpr hheld⟩

end ConnectionSlots

end TimeshiftBuffer

end DispatcharrPvr
