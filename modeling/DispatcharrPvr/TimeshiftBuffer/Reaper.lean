import DispatcharrPvr.TimeshiftBuffer.Operations

/-!
# TimeshiftBuffer.Reaper

The reapers: each worker's `_reaper_loop` elects a leader through Redis, and the
leader ages what it sees on a monotonic clock of its own.

A tick's body is that of `TimeshiftBuffer.Operations`; its `idle` steps are
answered here by the reaper's `_IdleTracker`.  What the other operations do to
what is shared happens by itself: they may leave anything whose states list no
viewer twice.
-/

namespace DispatcharrPvr

namespace TimeshiftBuffer

open Interleaving Interleaving.Program

/-! ## the tracker -/

/-- What a tracker remembers by: a buffer, or a viewer of it. -/
abbrev TrackerKey := Text × Option Text

/-- `_IdleTracker`: for each key the value last seen, and when that value was first
seen. -/
abbrev IdleTracker := List (TrackerKey × Int × Int)

namespace IdleTracker

/-- `age`, and the tracker it leaves. -/
def age (tracker : IdleTracker) (now : Int) (key : TrackerKey) (value : Int) :
    Int × IdleTracker :=
  match tracker.find? (·.1 = key) with
  | none => (0, (key, value, now) :: tracker)
  | some (_, previous, since) =>
      if previous ≠ value then (0, (key, value, now) :: tracker.filter (·.1 ≠ key))
      else (now - since, tracker)

/-- `retain`. -/
def retain (tracker : IdleTracker) (keys : List TrackerKey) : IdleTracker :=
  tracker.filter (·.1 ∈ keys)

variable {tracker : IdleTracker} {now value : Int} {key : TrackerKey}

/-- A value that has an age was remembered. -/
theorem mem_of_age_pos (h : 0 < (tracker.age now key value).1) :
    (key, value, now - (tracker.age now key value).1) ∈ tracker := by
  rw [age] at h ⊢
  split at h
  · simp at h
  · next k previous since hfind =>
      have hkey : k = key := by simpa using List.find?_some hfind
      by_cases hne : previous ≠ value
      · simp [hne] at h
      · have heq : previous = value := not_not.mp hne
        have hmem := List.mem_of_find?_eq_some hfind
        have htime : now - (now - since) = since := by omega
        simp only [heq, ne_eq, not_true_eq_false, if_false, htime]
        exact heq ▸ hkey ▸ hmem

/-- What is remembered then was remembered before, or is first seen now. -/
theorem mem_age {e : TrackerKey × Int × Int} (h : e ∈ (tracker.age now key value).2) :
    e ∈ tracker ∨ e = (key, value, now) := by
  rw [age] at h
  split at h
  · exact (List.mem_cons.mp h).symm
  · split at h
    · exact (List.mem_cons.mp h).symm.imp_left fun h => List.mem_of_mem_filter h
    · exact .inl h

end IdleTracker

/-! ## what is shared -/

/-- A value that a reaper has seen: at which of its ticks, in which term that tick's
election has found the leader's key its own, when by its clock, and whether the key was
its own then. -/
structure Sighting (Thread : Type) where
  reaper : Thread
  tick : Nat
  term : Option Nat
  key : TrackerKey
  value : Int
  time : Int
  leads : Bool
deriving DecidableEq

/-- What a reaper keeps for itself: its `tracker`, and its tick's `idle_timeout` and
`seen_keys`. -/
structure ReaperState where
  tracker : IdleTracker := []
  idleTimeout : Nat := 0
  seenKeys : List TrackerKey := []
  tick : Nat := 0
  /-- The term in which the tick's election has found the leader's key its own. -/
  elected : Option Nat := none
deriving DecidableEq

/-- All that is shared, what each reaper keeps, and what has become of it. -/
structure ReaperWorld (Thread : Type) where
  shared : World Thread := {}
  /-- The reaper whose token the leader's key has. -/
  leader : Option Thread := none
  /-- The term: how many `SET NX` of the leader's key have taken effect. -/
  term : Nat := 0
  /-- Each reaper's `time.monotonic()`. -/
  clock : Thread → Int := fun _ => 0
  reapers : Thread → ReaperState := fun _ => {}
  sightings : List (Sighting Thread) := []
  /-- The markers written: at which tick, of which channel, and the heartbeat that the
  state had then. -/
  marked : List (Thread × Nat × Text × Int) := []
  /-- The channels that a tick has found without a state. -/
  missed : List (Thread × Nat × Text) := []

/-! ## commands -/

/-- One step of a reaper. -/
inductive ReaperCmd (Thread : Type) where
  | plugin (c : Cmd Thread)
  /-- `SET NX EX` of the leader's key, which begins a tick. -/
  | setLeader
  | getLeader
  /-- `EXPIRE` of the leader's key. -/
  | renewLeader
  /-- `tracker.clear()`. -/
  | clearTracker
  /-- The settings: `idle_timeout_seconds` for the tick, and `storage_path`. -/
  | settings
  /-- `tracker.retain(seen_keys)`. -/
  | retainSeen

/-- The type of a command's answer. -/
@[reducible] def ReaperCmd.Answer {Thread : Type} : ReaperCmd Thread → Type
  | .plugin c => c.Answer
  | .setLeader => Bool
  | .getLeader => Option Thread
  | .renewLeader => Unit
  | .clearTracker => Unit
  | .settings => Text
  | .retainSeen => Unit

/-- What a step leaves open. -/
structure ReaperChoice extends Choice where
  idleTimeout : Nat := 30
  storagePath : Text := []

/-- `_MAX_IDLE_TIMEOUT_SECONDS`. -/
def maxIdleTimeoutSeconds : Nat := 300

namespace ReaperWorld

variable {Thread : Type} [DecidableEq Thread]

/-- What a reaper keeps, replaced. -/
def setReaper (s : ReaperWorld Thread) (t : Thread) (reaper : ReaperState) : ReaperWorld Thread :=
  { s with reapers := update s.reapers t reaper }

/-- What a step of the plugin's leaves: a marker written, or a state missed, is
noted. -/
def noted (s : ReaperWorld Thread) (t : Thread) (w : World Thread) :
    (c : Cmd Thread) → Except Failure c.Answer → ReaperWorld Thread
  | .casState channelUuid expected _ (some _) _, .ok true =>
      { s with
        shared := w
        marked := (t, (s.reapers t).tick, channelUuid, expected.lastHeartbeat) :: s.marked }
  | .query (.state channelUuid), .ok none =>
      { s with
        shared := w
        missed := (t, (s.reapers t).tick, channelUuid) :: s.missed }
  | _, _ => { s with shared := w }

/-- What a step of a reaper does. -/
def exec (t : Thread) (s : ReaperWorld Thread) :
    (c : ReaperCmd Thread) → ReaperChoice → Option (ReaperWorld Thread × Except Failure c.Answer)
  | .plugin (.idle channelUuid viewerId seen), choice =>
      let me := s.reapers t
      let aged := me.tracker.age (s.clock t) (channelUuid, viewerId) seen
      let flag := decide (seconds me.idleTimeout < aged.1)
      (s.shared.exec t (.idle channelUuid viewerId seen) { choice.toChoice with flag }).map
        fun (w, r) =>
          -- the keys that a tick ages are those of its `seen_keys`
          ({ s.setReaper t
              { me with tracker := aged.2, seenKeys := (channelUuid, viewerId) :: me.seenKeys } with
              shared := w
              sightings :=
                { reaper := t
                  tick := me.tick
                  term := me.elected
                  key := (channelUuid, viewerId)
                  value := seen
                  time := s.clock t
                  leads := s.leader = some t } :: s.sightings }, r)
  | .plugin c, choice => (s.shared.exec t c choice.toChoice).map fun (w, r) => (s.noted t w c r, r)
  | .setLeader, choice =>
      let me :=
        { s.reapers t with tick := (s.reapers t).tick + 1, seenKeys := [], elected := none }
      match s.leader, choice.failure with
      | none, none =>
          some
            ({ s.setReaper t { me with elected := some (s.term + 1) } with
                leader := some t
                term := s.term + 1 }, .ok true)
      | none, some true =>
          some ({ s.setReaper t me with leader := some t, term := s.term + 1 }, .error .redis)
      | some _, none => some (s.setReaper t me, .ok false)
      | _, some _ => some (s.setReaper t me, .error .redis)
  | .getLeader, choice =>
      if choice.failure.isSome then some (s, .error .redis)
      else if s.leader = some t then
        some (s.setReaper t { s.reapers t with elected := some s.term }, .ok s.leader)
      else some (s, .ok s.leader)
  | .renewLeader, choice =>
      if choice.failure.isSome then some (s, .error .redis) else some (s, .ok ())
  | .clearTracker, _ => some (s.setReaper t { s.reapers t with tracker := [] }, .ok ())
  | .settings, choice =>
      if choice.failure.isSome then some (s, .error .os)
      else if 1 ≤ choice.idleTimeout ∧ choice.idleTimeout ≤ maxIdleTimeoutSeconds then
        some
          (s.setReaper t { s.reapers t with idleTimeout := choice.idleTimeout },
            .ok choice.storagePath)
      else none
  | .retainSeen, _ =>
      let me := s.reapers t
      some (s.setReaper t { me with tracker := me.tracker.retain me.seenKeys }, .ok ())

end ReaperWorld

/-- A state as the plugin's operations store it under a channel. -/
def WellListed (channelUuid : Text) (state : BufferState) : Prop :=
  state.channelUuid = channelUuid ∧ state.viewers.Nodup

instance (channelUuid : Text) (state : BufferState) : Decidable (WellListed channelUuid state) :=
  inferInstanceAs (Decidable (_ ∧ _))

/-- What happens by itself. -/
inductive ReaperEnv (Thread : Type) where
  /-- The other operations, and the processes, leave this. -/
  | others (shared : World Thread)
  /-- The leader's key expires, or Redis loses it. -/
  | loseLeader
  /-- A reaper's clock goes on. -/
  | elapse (t : Thread) (elapsed : Nat)

/-- What the world does by itself. -/
def ReaperWorld.env {Thread : Type} [DecidableEq Thread] (s : ReaperWorld Thread) :
    ReaperEnv Thread → Option (ReaperWorld Thread)
  | .others shared =>
      if shared.scripts = s.shared.scripts ∧ ∀ e ∈ shared.states, WellListed e.1 e.2 then
        some { s with shared }
      else none
  | .loseLeader => some { s with leader := none }
  | .elapse t elapsed => some { s with clock := update s.clock t (s.clock t + elapsed) }

/-! ## the loop -/

variable {Thread : Type} [DecidableEq Thread]

/-- The rest of a reaper's loop. -/
abbrev ReaperProg (Thread α : Type) := Program (ReaperCmd Thread) ReaperCmd.Answer Failure α

/-- One command. -/
abbrev act (c : ReaperCmd Thread) : ReaperProg Thread c.Answer := perform c

/-- Steps of the plugin's, taken by a reaper. -/
def lift {α : Type} : Prog Thread α → ReaperProg Thread α
  | .done a => .done a
  | .raise e => .raise e
  | .call c next => .call (.plugin c) fun r => lift (next r)

/-- The election of a tick: `got_leadership`. -/
def gotLeadership (me : Thread) : ReaperProg Thread Bool := do
  if ← act .setLeader then pure true
  else do
    let current ← act .getLeader
    if current = some me then do
      act .renewLeader
      pure true
    else pure false

/-- A tick of `_reaper_loop`. -/
def reaperLoopTick (me : Thread) : ReaperProg Thread Unit :=
  tryExcept
    (do
      if ¬ (← gotLeadership me) then act .clearTracker
      else do
        let storagePath ← act .settings
        let keys ← lift listBufferKeys
        lift (reapBuffers keys)
        act .retainSeen
        lift (scrubOrphanedDirs storagePath))
    fun _ => pure ()

/-- `_reaper_loop`, until it is told to stop. -/
def reaperLoop (me : Thread) : Nat → ReaperProg Thread Unit
  | 0 => pure ()
  | ticks + 1 => do
      reaperLoopTick me
      reaperLoop me ticks

/-- The workers' reapers: how many ticks each has before it is told to stop. -/
def reaperLoops (ticks : Thread → Nat) :
    Machine (ReaperWorld Thread) Thread ReaperChoice (ReaperEnv Thread) (ReaperCmd Thread)
      ReaperCmd.Answer Failure where
  exec := ReaperWorld.exec
  env := ReaperWorld.env
  program t := reaperLoop t (ticks t)

end TimeshiftBuffer

end DispatcharrPvr
