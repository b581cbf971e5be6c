import DispatcharrPvr.Lib.Interleaving
import DispatcharrPvr.TimeshiftBuffer.BufferState

/-!
# TimeshiftBuffer.World

What the plugin's workers share, and the steps by which they reach it: Redis
with the buffers' states and the start locks, the channels' directories, and the
processes.  Each command is one step; between any two of them anything else may
happen.

A Redis call may fail, before or after its effect.  A process is named by its
pid and its start time together; a pid may be used again once its process has
exited.
-/

namespace DispatcharrPvr

namespace TimeshiftBuffer

open Interleaving

/-! ## what is shared -/

/-- The start lock of a channel, and `_START_SLOT_LOCK_ID`. -/
inductive LockName where
  | channel (channelUuid : Text)
  | slot
deriving DecidableEq, Repr

/-- A lock's token: the thread that took it, and when. -/
structure LockToken (Thread : Type) where
  thread : Thread
  serial : Nat
deriving DecidableEq, Repr

/-- A channel's directory by storage path and channel. -/
abbrev DirPath := Text × Text

/-- A channel's directory: the process its owner file names and the one that the
file to replace it names, what `ffmpeg` has written there, the processes that
were started in it and those that have written into it. -/
structure Directory extends ChannelDir where
  owner : Option ProcessId := none
  ownerTmp : Option ProcessId := none
  tenants : List ProcessId := []
  writers : List ProcessId := []

/-- Where an `ffmpeg` was started, and under which start lock. -/
structure Spawned (Thread : Type) where
  process : ProcessId
  path : DirPath
  lock : Option (LockToken Thread)
  thread : Thread
deriving DecidableEq

/-- All that is shared, and what has become of it. -/
structure World (Thread : Type) where
  /-- Whether this Redis runs scripts. -/
  scripts : Bool := true
  clock : Int := 0
  states : Dict BufferState := []
  /-- The number of scans begun, and the number when a channel's state came up. -/
  scans : Nat := 0
  since : Text → Nat := fun _ => 0
  locks : LockName → Option (LockToken Thread) := fun _ => none
  serial : Nat := 0
  dirs : DirPath → Option Directory := fun _ => none
  /-- The start time of the process a pid has. -/
  processes : Nat → Option Nat := fun _ => none
  born : List ProcessId := []
  /-- The locks a thread has taken and not yet given back. -/
  holding : Thread → LockName → Option (LockToken Thread) := fun _ _ => none
  /-- The tokens whose lock has expired since they were last renewed. -/
  expired : List (LockToken Thread) := []
  spawned : List (Spawned Thread) := []
  /-- The states under which a start has registered an instance. -/
  registered : List BufferState := []
  /-- The threads that have called the write that registers their instance. -/
  registering : List Thread := []
  /-- A worker's `_manifest_cache`, with the writers of what an entry is made
  from. -/
  caches : Nat → Dict (CachedManifest × List ProcessId) := fun _ => []
  /-- The values that a thread's tick has found to have stood for too long. -/
  idled : List (Thread × Text × Option Text × Int) := []
  /-- The processes that were signalled, whose directory was moved aside, or whose
  state was overwritten or deleted, by an operation that removes another instance
  or clears what is left of none. -/
  harmed : List ProcessId := []

/-- A function changed at one place. -/
def update {κ α : Type} [DecidableEq κ] (f : κ → α) (key : κ) (value : α) : κ → α :=
  fun k => if k = key then value else f k

@[simp] theorem update_self {κ α : Type} [DecidableEq κ] (f : κ → α) (key : κ) (value : α) :
    update f key value key = value := by
  simp [update]

theorem update_of_ne {κ α : Type} [DecidableEq κ] (f : κ → α) {key k : κ} (value : α)
    (hne : k ≠ key) : update f key value k = f k := by
  simp [update, hne]

/-! ## commands -/

/-- Why an operation's code raises. -/
inductive Failure where
  /-- A Redis call failed. -/
  | redis
  /-- Redis refused a script. -/
  | response
  /-- `_StartLocksLost`. -/
  | startLocksLost
  | fileNotFound
  | os
deriving DecidableEq, Repr

/-- What a state is stored for without being compared. -/
inductive StoreReason where
  /-- A start registers its instance. -/
  | registration
  /-- A teardown writes its marker directly. -/
  | marker
  /-- `_cas_buffer_state` without scripts. -/
  | unguarded
deriving DecidableEq, Repr

/-- A step that changes nothing. -/
inductive Query where
  /-- `_get_buffer_state`. -/
  | state (channelUuid : Text)
  /-- The end of a scan of the states' keys begun as `scan`. -/
  | scanned (scan : Nat)
  /-- A lock's token. -/
  | lock (name : LockName)
  /-- `_shared_now`. -/
  | sharedNow
  /-- `_proc_start_ticks`. -/
  | procStartTicks (pid : Nat)
  /-- `_is_process_alive`. -/
  | isProcessAlive (process : ProcessId)
  /-- `time.monotonic()` against a deadline: whether there is time left. -/
  | beforeDeadline
  /-- The directories of a storage path. -/
  | channelDirs (storagePath : Text)
  /-- Whether a directory's age by its `mtime` is enough; `none` when it is gone. -/
  | oldEnough (path : DirPath)
  /-- `_read_owner_file`. -/
  | ownerFile (path : DirPath)
  /-- Whether an owner's process was started long enough ago. -/
  | startedLongAgo (owner : ProcessId)
  /-- `stat` of the playlist. -/
  | playlistStat (path : DirPath)
  /-- The lines of the playlist, read for an instance, and who has written into
  its directory. -/
  | playlistText (path : DirPath) (instance' : ProcessId)
  /-- The lines of `ffmpeg.log`. -/
  | ffmpegLog (path : DirPath)
  /-- `stat` of a segment file for an instance, and who has written into its
  directory. -/
  | segmentSize (path : DirPath) (segName : Text) (instance' : ProcessId)
  /-- The channel's entry of a worker's manifest cache. -/
  | cachedManifest (worker : Nat) (channelUuid : Text)
deriving DecidableEq, Repr

/-- One step of an operation. -/
inductive Cmd (Thread : Type) where
  | query (q : Query)
  /-- `_set_buffer_state`. -/
  | setState (channelUuid : Text) (state : BufferState) (reason : StoreReason)
  /-- The script of `_cas_buffer_state`, for the instance that is torn down if it
  is its marker that is written; how many tries there are after it. -/
  | casState (channelUuid : Text) (expected new : BufferState) (instance' : Option ProcessId)
      (triesLeft : Nat)
  /-- The script of `_compare_and_delete_buffer_state`, for the instance that is
  removed. -/
  | cadState (channelUuid : Text) (expected : BufferState) (instance' : ProcessId)
      (triesLeft : Nat)
  /-- `_delete_buffer_state`, for the instance that is removed. -/
  | deleteState (channelUuid : Text) (instance' : ProcessId)
  /-- A scan of the states' keys is begun. -/
  | scan
  | acquireLock (name : LockName)
  /-- `_RELEASE_LOCK_SCRIPT`. -/
  | releaseLock (name : LockName) (token : LockToken Thread)
  /-- `_RENEW_LOCK_SCRIPT`. -/
  | renewLock (name : LockName) (token : LockToken Thread)
  /-- The plain delete of a lock. -/
  | deleteLock (name : LockName) (token : LockToken Thread)
  /-- The plain renewal of a lock. -/
  | expireLock (name : LockName) (token : LockToken Thread)
  /-- The rename of `_move_aside_and_remove`, for the instance whose files are
  removed, if it is about one. -/
  | moveAside (path : DirPath) (instance' : Option ProcessId)
  | mkdir (path : DirPath)
  /-- `subprocess.Popen` in the directory. -/
  | popen (path : DirPath)
  /-- `os.killpg` of a pid that was found to be `process`'s, for the instance
  that is stopped, if it is about one. -/
  | killpg (process : ProcessId) (instance' : Option ProcessId) (kill : Bool)
  | writeOwnerTmp (path : DirPath) (process : ProcessId)
  | unlinkOwnerTmp (path : DirPath)
  /-- The owner file replaced by the one written for a process. -/
  | replaceOwner (path : DirPath) (process : ProcessId)
  /-- The tick's `_IdleTracker`: whether this value has stood for too long. -/
  | idle (channelUuid : Text) (viewerId : Option Text) (seen : Int)
  /-- An entry of a worker's manifest cache written. -/
  | rememberManifest (worker : Nat) (channelUuid : Text)
      (entry : CachedManifest × List ProcessId)
  /-- A manifest is answered to a request with this token. -/
  | answerManifest (suppliedToken : Option Text) (manifest : Manifest) (writers : List ProcessId)

/-- The type of a query's answer. -/
@[reducible] def Query.Answer (Thread : Type) : Query → Type
  | .state _ => Option BufferState
  | .scanned _ => List Text
  | .lock _ => Option (LockToken Thread)
  | .sharedNow => Int
  | .procStartTicks _ => Option Nat
  | .isProcessAlive _ => Bool
  | .beforeDeadline => Bool
  | .channelDirs _ => List Text
  | .oldEnough _ => Option Bool
  | .ownerFile _ => Option ProcessId
  | .startedLongAgo _ => Bool
  | .playlistStat _ => Option (Int × Nat)
  | .playlistText .. => Option (List Text × List ProcessId)
  | .ffmpegLog _ => List Text
  | .segmentSize .. => Option (Nat × List ProcessId)
  | .cachedManifest .. => Option (CachedManifest × List ProcessId)

/-- The type of a command's answer. -/
@[reducible] def Cmd.Answer {Thread : Type} : Cmd Thread → Type
  | .query q => q.Answer Thread
  | .setState .. => Unit
  | .casState .. => Bool
  | .cadState .. => Bool
  | .deleteState .. => Unit
  | .scan => Nat
  | .acquireLock _ => Option (LockToken Thread)
  | .releaseLock .. => Unit
  | .renewLock .. => Bool
  | .deleteLock .. => Unit
  | .expireLock .. => Unit
  | .moveAside .. => Bool
  | .mkdir _ => Unit
  | .popen _ => ProcessId
  | .killpg .. => Unit
  | .writeOwnerTmp .. => Unit
  | .unlinkOwnerTmp _ => Unit
  | .replaceOwner .. => Unit
  | .idle .. => Bool
  | .rememberManifest .. => Unit
  | .answerManifest .. => Unit

/-- What a step leaves open: whether a Redis call fails, and then whether after
its effect, whether a file operation does, and what the world answers of its
own. -/
structure Choice where
  failure : Option Bool := none
  fileError : Bool := false
  flag : Bool := false
  names : List Text := []
  process : ProcessId := (2, 0)
deriving DecidableEq, Repr

/-! ## what a step does -/

namespace World

variable {Thread : Type} [DecidableEq Thread]

/-- A Redis call: its effect and its answer, unless it fails. -/
def redis {α : Type} (s : World Thread) (choice : Choice) (effect : World Thread) (answer : α) :
    Option (World Thread × Except Failure α) :=
  match choice.failure with
  | none => some (effect, .ok answer)
  | some false => some (s, .error .redis)
  | some true => some (effect, .error .redis)

/-- A script: refused where this Redis runs none. -/
def script {α : Type} (s : World Thread) (choice : Choice) (effect : World Thread) (answer : α) :
    Option (World Thread × Except Failure α) :=
  if s.scripts then s.redis choice effect answer else some (s, .error .response)

/-- A channel's state stored. -/
def putState (s : World Thread) (channelUuid : Text) (state : BufferState) : World Thread :=
  { s with
    states := s.states.set channelUuid state
    since :=
      if (s.states.get channelUuid).isSome then s.since else update s.since channelUuid s.scans }

/-- A channel's state gone. -/
def dropState (s : World Thread) (channelUuid : Text) : World Thread :=
  { s with states := s.states.erase channelUuid }

/-- A lock's token gone. -/
def dropLock (s : World Thread) (name : LockName) : World Thread :=
  { s with locks := update s.locks name none }

/-- A thread takes a lock's token, or gives it back. -/
def hold (s : World Thread) (t : Thread) (name : LockName) (token : Option (LockToken Thread)) :
    World Thread :=
  { s with holding := update s.holding t (update (s.holding t) name token) }

/-- A directory replaced. -/
def setDir (s : World Thread) (path : DirPath) (dir : Option Directory) : World Thread :=
  { s with dirs := update s.dirs path dir }

/-- A process whose instance was registered, and whose state is no longer there. -/
def gone (s : World Thread) (process : ProcessId) : Bool :=
  s.registered.any (·.process = process) && !s.states.any (·.2.process = process)

/-- Those of the victims that are harmed: what is left of an instance that is gone
may be cleared. -/
def harm (s : World Thread) (victims : List ProcessId) (instance' : Option ProcessId) :
    World Thread :=
  { s with
    harmed := victims.filter (fun p => some p ≠ instance' && !s.gone p) ++ s.harmed }

/-- The instance whose state is overwritten or deleted for another one's sake. -/
def harmState (s : World Thread) (channelUuid : Text) (instance' : Option ProcessId) :
    World Thread :=
  s.harm (if instance'.isSome then ((s.states.get channelUuid).map (·.process)).toList else [])
    instance'

/-- Whether a process is running. -/
def running (s : World Thread) (process : ProcessId) : Bool :=
  s.processes process.1 == some process.2

/-- The processes a directory's removal takes it from. -/
def tenants (s : World Thread) (path : DirPath) : List ProcessId :=
  ((s.dirs path).map (·.tenants)).getD []

/-- What a query answers.  Where the world answers of its own, a scan still
returns every key that was there from its begin to its end. -/
def answer (s : World Thread) (choice : Choice) :
    (q : Query) → Option (Except Failure (q.Answer Thread))
  | .state channelUuid =>
      if choice.failure.isSome then some (.error .redis)
      else some (.ok (s.states.get channelUuid))
  | .scanned scan =>
      if choice.failure.isSome then some (.error .redis)
      else if ∀ e ∈ s.states, s.since e.1 < scan → e.1 ∈ choice.names then
        some (.ok choice.names)
      else none
  | .lock name =>
      if choice.failure.isSome then some (.error .redis) else some (.ok (s.locks name))
  | .sharedNow => some (.ok s.clock)
  | .procStartTicks pid => some (.ok (s.processes pid))
  | .isProcessAlive process => some (.ok (s.running process))
  | .beforeDeadline => some (.ok choice.flag)
  | .channelDirs _ => some (.ok choice.names)
  | .oldEnough path => some (.ok ((s.dirs path).map fun _ => choice.flag))
  | .ownerFile path => some (.ok ((s.dirs path).bind (·.owner)))
  | .startedLongAgo _ => some (.ok choice.flag)
  | .playlistStat path =>
      some (.ok (((s.dirs path).bind (·.playlist)).map fun p => (p.mtimeNs, p.size)))
  | .playlistText path _ =>
      some (.ok ((s.dirs path).bind fun d => d.playlist.map fun p => (p.lines, d.writers)))
  | .ffmpegLog path => some (.ok (((s.dirs path).map (·.ffmpegLog)).getD []))
  | .segmentSize path segName _ =>
      some (.ok ((s.dirs path).bind fun d => (d.files segName).map fun size => (size, d.writers)))
  | .cachedManifest worker channelUuid => some (.ok ((s.caches worker).get channelUuid))

/-- What a step of a thread does. -/
def exec (t : Thread) (s : World Thread) :
    (c : Cmd Thread) → Choice → Option (World Thread × Except Failure c.Answer)
  | .query q, choice => (s.answer choice q).map fun r => (s, r)
  | .setState channelUuid state .registration, choice =>
      let s := { s with registering := t :: s.registering }
      s.redis choice
        { (s.harmState channelUuid (some state.process)).putState channelUuid state with
          registered := state :: s.registered } ()
  | .setState channelUuid state _, choice =>
      s.redis choice
        ((s.harmState channelUuid (some state.process)).putState channelUuid state) ()
  | .casState channelUuid expected new instance' _, choice =>
      if s.states.get channelUuid = some expected then
        s.script choice ((s.harmState channelUuid instance').putState channelUuid new) true
      else s.script choice s false
  | .cadState channelUuid expected instance' _, choice =>
      if s.states.get channelUuid = some expected then
        s.script choice ((s.harmState channelUuid (some instance')).dropState channelUuid) true
      else s.script choice s false
  | .deleteState channelUuid instance', choice =>
      s.redis choice ((s.harmState channelUuid (some instance')).dropState channelUuid) ()
  | .scan, choice => s.redis choice { s with scans := s.scans + 1 } (s.scans + 1)
  | .acquireLock name, choice =>
      let token : LockToken Thread := ⟨t, s.serial⟩
      let tried := { s with serial := s.serial + 1 }
      if (s.locks name).isSome then tried.redis choice tried none
      else
        let taken := { tried with locks := update s.locks name (some token) }
        match choice.failure with
        | none => some (taken.hold t name (some token), .ok (some token))
        | some false => some (tried, .error .redis)
        | some true => some (taken, .error .redis)
  | .releaseLock name token, choice =>
      let s := s.hold t name none
      s.script choice (if s.locks name = some token then s.dropLock name else s) ()
  | .renewLock name token, choice =>
      s.script choice { s with expired := s.expired.filter (· ≠ token) }
        (decide (s.locks name = some token))
  | .deleteLock name _, choice => s.redis choice (s.dropLock name) ()
  | .expireLock _ token, choice =>
      s.redis choice { s with expired := s.expired.filter (· ≠ token) } ()
  | .moveAside path instance', _ =>
      match s.dirs path with
      | none => some (s, .ok false)
      | some dir => some ((s.harm dir.tenants instance').setDir path none, .ok true)
  | .mkdir path, choice =>
      if choice.fileError then some (s, .error .os)
      else some (s.setDir path (some ((s.dirs path).getD {})), .ok ())
  | .popen path, choice =>
      match choice.fileError, s.dirs path with
      | true, _ => some (s, .error .os)
      | false, none => some (s, .error .fileNotFound)
      | false, some dir =>
          let process := choice.process
          if 1 < process.1 ∧ s.processes process.1 = none ∧ process ∉ s.born then
            some
              ({ s with
                  processes := update s.processes process.1 (some process.2)
                  born := process :: s.born
                  spawned :=
                    { process, path, thread := t, lock := s.holding t (.channel path.2) } ::
                      s.spawned }.setDir path
                  (some { dir with tenants := process :: dir.tenants }), .ok process)
          else none
  | .killpg process instance' kill, _ =>
      match s.processes process.1 with
      | none => some (s, .ok ())
      | some ticks =>
          let signalled := s.harm [(process.1, ticks)] instance'
          some
            (if kill then
              { signalled with processes := update s.processes process.1 none }
            else signalled, .ok ())
  | .writeOwnerTmp path process, choice =>
      match choice.fileError, s.dirs path with
      | true, _ => some (s, .error .os)
      | false, none => some (s, .error .fileNotFound)
      | false, some dir => some (s.setDir path (some { dir with ownerTmp := some process }), .ok ())
  | .unlinkOwnerTmp path, _ =>
      match s.dirs path with
      | none => some (s, .ok ())
      | some dir => some (s.setDir path (some { dir with ownerTmp := none }), .ok ())
  | .replaceOwner path _, choice =>
      match choice.fileError,
        (s.dirs path).bind fun dir => dir.ownerTmp.map fun tmp => (dir, tmp) with
      | true, _ => some (s, .error .os)
      | false, none => some (s, .error .fileNotFound)
      | false, some (dir, tmp) =>
          some (s.setDir path (some { dir with owner := some tmp, ownerTmp := none }), .ok ())
  | .idle channelUuid viewerId seen, choice =>
      some
        (if choice.flag then
          { s with idled := (t, channelUuid, viewerId, seen) :: s.idled }
        else s, .ok choice.flag)
  | .rememberManifest worker channelUuid entry, _ =>
      some
        ({ s with caches := update s.caches worker ((s.caches worker).set channelUuid entry) },
          .ok ())
  | .answerManifest .., _ => some (s, .ok ())

end World

/-- What happens by itself. -/
inductive Env where
  | tick (elapsed : Nat)
  /-- A state expires, or Redis loses it. -/
  | loseState (channelUuid : Text)
  /-- A lock expires, or Redis loses it. -/
  | expireLock (name : LockName)
  /-- A process exits. -/
  | exit (pid : Nat)
  /-- A process that is not the plugin's comes up. -/
  | foreign (process : ProcessId)
  /-- An `ffmpeg` writes what it writes in its channel's directory: the
  playlist by the directory's name, whichever directory has that name now. -/
  | ffmpegWrites (process : ProcessId) (path : DirPath) (files : ChannelDir)
  /-- A worker drops a channel's manifest. -/
  | forgetManifest (worker : Nat) (channelUuid : Text)

/-- What the world does by itself. -/
def World.env {Thread : Type} [DecidableEq Thread] (s : World Thread) : Env → Option (World Thread)
  | .tick elapsed => some { s with clock := s.clock + elapsed }
  | .loseState channelUuid => some { s with states := s.states.erase channelUuid }
  | .expireLock name =>
      some
        { s with
          locks := update s.locks name none
          expired := (s.locks name).toList ++ s.expired }
  | .exit pid => some { s with processes := update s.processes pid none }
  | .foreign process =>
      if s.processes process.1 = none ∧ process ∉ s.born then
        some
          { s with
            processes := update s.processes process.1 (some process.2)
            born := process :: s.born }
      else none
  | .ffmpegWrites process path files =>
      if s.running process ∧ ∃ spawned ∈ s.spawned, spawned.process = process ∧ spawned.path = path
      then
        (s.dirs path).map fun dir =>
          s.setDir path (some { dir with toChannelDir := files, writers := process :: dir.writers })
      else none
  | .forgetManifest worker channelUuid =>
      some
        { s with caches := update s.caches worker ((s.caches worker).erase channelUuid) }

end TimeshiftBuffer

end DispatcharrPvr
