import DispatcharrPvr.TimeshiftBuffer.World

/-!
# TimeshiftBuffer.Operations

The operations of the plugin, step by step: its actions, the file server's
heartbeat on a read, and the reaper's tick.

Left out are what only logs or answers, the plugin's own removal of what it has
moved aside, and a caller's bad parameters.
-/

namespace DispatcharrPvr

namespace TimeshiftBuffer

open Interleaving Interleaving.Program

variable {Thread : Type} [DecidableEq Thread]

/-- The rest of an operation. -/
abbrev Prog (Thread α : Type) := Program (Cmd Thread) Cmd.Answer Failure α

/-- One command. -/
abbrev call (c : Cmd Thread) : Prog Thread c.Answer := perform c

/-- One query. -/
abbrev ask (q : Query) : Prog Thread (q.Answer Thread) := perform (Cmd.query q)

/-! ## the state's writes -/

/-- `_STATE_UPDATE_ATTEMPTS`. -/
def stateUpdateAttempts : Nat := 10

/-- What `_update_buffer_state` comes to. -/
inductive Outcome where
  | written (state : BufferState)
  | absent
  | declined
  | contended
deriving DecidableEq, Repr

/-- `_cas_buffer_state`, with so many tries left after it. -/
def casBufferState (channelUuid : Text) (expected new : BufferState)
    (instance' : Option ProcessId) (triesLeft : Nat) : Prog Thread Bool :=
  (call (.casState channelUuid expected new instance' triesLeft)).tryExcept fun e =>
    -- a Redis that runs no scripts: unguarded
    if e = .response then do
      call (.setState channelUuid new .unguarded)
      pure true
    else .raise e

/-- The tries of `_update_buffer_state`. -/
def tryUpdate (channelUuid : Text) (mutate : BufferState → Prog Thread (Option BufferState))
    (instance' : Option ProcessId) : Nat → Prog Thread Outcome
  | 0 => pure .contended
  | tries + 1 => do
      match ← ask (.state channelUuid) with
      | none => pure .absent
      | some state =>
          match ← mutate state with
          | none => pure .declined
          | some updated =>
              if ← casBufferState channelUuid state updated instance' tries then
                pure (.written updated)
              else tryUpdate channelUuid mutate instance' tries

/-- `_update_buffer_state`, for the instance that is torn down if it writes its
marker. -/
def updateBufferState (channelUuid : Text)
    (mutate : BufferState → Prog Thread (Option BufferState))
    (instance' : Option ProcessId) : Prog Thread Outcome :=
  tryUpdate channelUuid mutate instance' stateUpdateAttempts

/-- What `_delete_buffer_state_if_instance` comes to. -/
inductive Deletion where
  | deleted
  | absent
  | replaced
  | contended
deriving DecidableEq, Repr

/-- `_compare_and_delete_buffer_state`. -/
def compareAndDeleteBufferState (channelUuid : Text) (expected : BufferState)
    (instance' : ProcessId) (triesLeft : Nat) : Prog Thread Bool :=
  (call (.cadState channelUuid expected instance' triesLeft)).tryExcept fun e =>
    if e = .response then do
      call (.deleteState channelUuid instance')
      pure true
    else .raise e

/-- The tries of `_delete_buffer_state_if_instance`. -/
def tryDelete (channelUuid : Text) (instance' : BufferState) : Nat → Prog Thread Deletion
  | 0 => pure .contended
  | tries + 1 => do
      match ← ask (.state channelUuid) with
      | none => pure .absent
      | some current =>
          if ¬ current.sameBufferInstance instance' then pure .replaced
          else if ← compareAndDeleteBufferState channelUuid current instance'.process tries then
            pure .deleted
          else tryDelete channelUuid instance' tries

/-- `_delete_buffer_state_if_instance`. -/
def deleteBufferStateIfInstance (channelUuid : Text) (instance' : BufferState) :
    Prog Thread Deletion :=
  tryDelete channelUuid instance' stateUpdateAttempts

/-- `_list_buffer_keys`. -/
def listBufferKeys : Prog Thread (List Text) := do
  let scan ← call .scan
  let keys ← ask (.scanned scan)
  pure keys.eraseDups

/-! ## the start locks -/

/-- `_acquire_start_buffer_lock`. -/
def acquireStartBufferLock (name : LockName) : Prog Thread (Option (LockToken Thread)) :=
  call (.acquireLock name)

/-- `_release_start_buffer_lock`. -/
def releaseStartBufferLock (name : LockName) (token : LockToken Thread) : Prog Thread Unit :=
  (call (.releaseLock name token)).tryExcept fun e =>
    if e = .response then do
      let current ← ask (.lock name)
      if current = some token then call (.deleteLock name token) else pure ()
    else .raise e

/-- `_renew_start_buffer_lock`. -/
def renewStartBufferLock (name : LockName) (token : LockToken Thread) : Prog Thread Bool :=
  (call (.renewLock name token)).tryExcept fun e =>
    if e = .response then do
      let current ← ask (.lock name)
      if current ≠ some token then pure false
      else do
        call (.expireLock name token)
        pure true
    else .raise e

/-- `_still_holds_start_locks`. -/
def stillHoldsStartLocks (channelUuid : Text) (lockToken slotToken : LockToken Thread) :
    Prog Thread Bool := do
  let channelHeld ← renewStartBufferLock (.channel channelUuid) lockToken
  let slotHeld ← renewStartBufferLock .slot slotToken
  pure (channelHeld && slotHeld)

/-! ## processes and directories -/

/-- The polls that two seconds leave room for. -/
def stopPolls : Nat := 11

/-- `_stop_ffmpeg` behind its SIGTERM. -/
def awaitExit (process : ProcessId) (instance' : Option ProcessId) : Nat → Prog Thread Unit
  | 0 => call (.killpg process instance' true)
  | polls + 1 => do
      if ← ask .beforeDeadline then
        if ← ask (.isProcessAlive process) then awaitExit process instance' polls else pure ()
      else call (.killpg process instance' true)

/-- `_stop_ffmpeg`. -/
def stopFfmpeg (process : ProcessId) (instance' : Option ProcessId) : Prog Thread Unit := do
  let actualTicks ← ask (.procStartTicks process.1)
  -- the pid is somebody else's by now
  if actualTicks.any (· ≠ process.2) then pure ()
  else do
    call (.killpg process instance' false)
    awaitExit process instance' stopPolls

/-- `_channel_dir` of a state. -/
def channelDir (state : BufferState) : DirPath := (state.storagePath, state.channelUuid)

/-- `_remove_channel_files`. -/
def removeChannelFiles (state : BufferState) : Prog Thread Unit := do
  let _ ← call (.moveAside (channelDir state) (some state.process))
  pure ()

/-- `_live_owner`. -/
def liveOwner (path : DirPath) : Prog Thread (Option ProcessId) := do
  match ← ask (.ownerFile path) with
  | none => pure none
  | some owner =>
      if ← ask (.isProcessAlive owner) then pure (some owner) else pure none

/-- `_reap_untracked_ffmpeg`. -/
def reapUntrackedFfmpeg (path : DirPath) : Prog Thread Bool := do
  match ← liveOwner path with
  | none => pure false
  | some owner => do
      stopFfmpeg owner none
      pure true

/-- `_clear_channel_dir`. -/
def clearChannelDir (path : DirPath) : Prog Thread Unit := do
  let _ ← call (.moveAside path none)
  pure ()

/-- `_write_owner_file`. -/
def writeOwnerFile (path : DirPath) (process : ProcessId) : Prog Thread Unit :=
  tryExcept
    (do
      call (.writeOwnerTmp path process)
      match ← liveOwner path with
      | none => call (.replaceOwner path process)
      | some other =>
          -- a running one is not replaced
          if other ≠ process then call (.unlinkOwnerTmp path)
          else call (.replaceOwner path process))
    fun e => if e = .os ∨ e = .fileNotFound then pure () else .raise e

/-! ## teardown -/

/-- `mark_stopping` of `_teardown_buffer`. -/
def markStoppingUnless (state : BufferState) (abortIf : AbortIf) (current : BufferState) :
    Prog Thread (Option BufferState) :=
  if ¬ current.sameBufferInstance state then pure none
  else if abortIf.holds current then pure none
  else do
    let now ← ask .sharedNow
    pure (some (markStopping current now))

/-- `_teardown_untracked_buffer`. -/
def teardownUntrackedBuffer (state : BufferState) : Prog Thread Bool := do
  match ← acquireStartBufferLock (.channel state.channelUuid) with
  | none => pure false
  | some token =>
      tryFinally
        (do
          let current ← ask (.state state.channelUuid)
          if current.any (fun current => !current.sameBufferInstance state) then pure false
          else do
            stopFfmpeg state.process (some state.process)
            removeChannelFiles state
            call (.deleteState state.channelUuid state.process)
            pure true)
        (releaseStartBufferLock (.channel state.channelUuid) token)

/-- `_teardown_buffer` behind its marker. -/
def removeBuffer (state : BufferState) (outcome : Outcome) : Prog Thread Bool := do
  stopFfmpeg state.process (some state.process)
  removeChannelFiles state
  if outcome = .absent then do
    call (.deleteState state.channelUuid state.process)
    pure true
  else do
    let _ ← deleteBufferStateIfInstance state.channelUuid state
    pure true

/-- `_teardown_buffer`. -/
def teardownBuffer (state : BufferState) (abortIf : AbortIf) (holdsStartLock : Bool) :
    Prog Thread Bool := do
  let outcome ← updateBufferState state.channelUuid (markStoppingUnless state abortIf)
    (some state.process)
  if outcome = .declined then pure false
  else do
    let now ← ask .sharedNow
    let state := markStopping state now
    if outcome = .contended then call (.setState state.channelUuid state .marker)
    if outcome = .absent ∧ ¬ holdsStartLock then teardownUntrackedBuffer state
    else removeBuffer state outcome

/-! ## start -/

/-- What a `start_buffer` is called with, the settings it reads and the token it
draws among it. -/
structure StartParams where
  channelUuid : Text
  viewerId : Option Text
  httpPort : Nat
  storagePath : Text
  token : Text
deriving DecidableEq, Repr

namespace StartParams

/-- The directory its `ffmpeg` is started in. -/
def path (params : StartParams) : DirPath := (params.storagePath, params.channelUuid)

end StartParams

/-- What an action answers. -/
structure Reply where
  ok : Bool
  retryable : Bool := false
  fatal : Bool := false
  message : String
deriving DecidableEq, Repr

/-- `{"status": "ok", …}`. -/
def Reply.done (message : String) : Reply := { ok := true, message }

/-- `{"status": "error", "retryable": True, …}`. -/
def Reply.retry (message : String) : Reply := { ok := false, retryable := true, message }

/-- `{"status": "error", …}`. -/
def Reply.error (message : String) : Reply := { ok := false, message }

/-- `{"status": "error", "fatal": True, …}`. -/
def Reply.fail (message : String) : Reply := { ok := false, fatal := true, message }

/-- `_start_locks_lost`. -/
def startLocksLost : Reply :=
  .retry "This start took too long and lost its lock to another -- retry in a moment"

/-- The part of `_start_ffmpeg` that clears the directory and spawns the process. -/
def spawnFfmpeg (params : StartParams) : Prog Thread BufferState := do
  clearChannelDir params.path
  call (.mkdir params.path)
  let process ← call (.popen params.path)
  writeOwnerFile params.path process
  let startedAt ← ask .sharedNow
  let lastHeartbeat ← ask .sharedNow
  pure
    { channelUuid := params.channelUuid
      pid := process.1
      pidStartTicks := process.2
      startedAt
      lastHeartbeat
      storagePath := params.storagePath
      httpPort := params.httpPort
      accessToken := none }

/-- `_start_ffmpeg`: the state of the buffer it starts, without viewers. -/
def startFfmpeg (params : StartParams) (lockToken slotToken : LockToken Thread) :
    Prog Thread BufferState := do
  if ← reapUntrackedFfmpeg params.path then
    if ← stillHoldsStartLocks params.channelUuid lockToken slotToken then spawnFfmpeg params
    else .raise .startLocksLost
  else spawnFfmpeg params

/-- The state a start registers: its viewer listed, with a token of its own. -/
def newBuffer (params : StartParams) (state : BufferState) (now : Int) : BufferState :=
  { state with
    viewers := params.viewerId.toList
    viewerHeartbeats := params.viewerId.toList.map (·, now)
    accessToken := some params.token }

/-- The part of `_start_buffer_locked` behind `_start_ffmpeg`. -/
def registerBuffer (params : StartParams) (lockToken slotToken : LockToken Thread)
    (state : BufferState) : Prog Thread Reply := do
  let now ← ask .sharedNow
  let state := newBuffer params state now
  let held ← (stillHoldsStartLocks params.channelUuid lockToken slotToken).tryExcept fun e => do
    stopFfmpeg state.process (some state.process)
    .raise e
  if ¬ held then do
    stopFfmpeg state.process (some state.process)
    pure startLocksLost
  else do
    call (.setState params.channelUuid state .registration)
    pure (.done "Started a new buffer")

/-- The part of `_start_buffer_locked` under the slot lock. -/
def startInSlot (maxConcurrent : Nat) (params : StartParams)
    (lockToken slotToken : LockToken Thread) : Prog Thread Reply := do
  let keys ← listBufferKeys
  if maxConcurrent ≤ keys.length then pure (.error "Already at max_concurrent_buffers")
  else do
    if ¬ (← stillHoldsStartLocks params.channelUuid lockToken slotToken) then pure startLocksLost
    else do
      let started ← ((startFfmpeg params lockToken slotToken).bind fun state =>
          pure (Except.ok state)).tryExcept fun e =>
        pure (Except.error (match e with
          | .startLocksLost => startLocksLost
          | .fileNotFound => .error "ffmpeg not found in this container"
          | _ => .error "failed to start buffer"))
      match started with
      | .error reply => pure reply
      | .ok state => registerBuffer params lockToken slotToken state

/-- The part of `_start_buffer_locked` that finds no buffer to attach to. -/
def startFresh (maxConcurrent : Nat) (params : StartParams) (lockToken : LockToken Thread) :
    Prog Thread Reply := do
  match ← acquireStartBufferLock .slot with
  | none => pure (.retry "Another buffer is being started right now -- retry in a moment")
  | some slotToken =>
      tryFinally (startInSlot maxConcurrent params lockToken slotToken)
        (releaseStartBufferLock .slot slotToken)

/-- `attach` of `_start_buffer_locked`. -/
def attachUnlessStopping (params : StartParams) (current : BufferState) :
    Prog Thread (Option BufferState) :=
  if current.stopping then pure none
  else do
    let now ← ask .sharedNow
    let viewerNow ← if params.viewerId.isSome then ask .sharedNow else pure now
    pure (some (attach current params.viewerId params.token now viewerNow))

/-- `_start_buffer_locked`. -/
def startBufferLocked (maxConcurrent : Nat) (params : StartParams)
    (lockToken : LockToken Thread) : Prog Thread Reply := do
  match ← ask (.state params.channelUuid) with
  | none => startFresh maxConcurrent params lockToken
  | some existing => do
      let isAlive ← ask (.isProcessAlive existing.process)
      let now ← ask .sharedNow
      match classifyExistingBuffer (some existing) isAlive now params.httpPort
          params.storagePath with
      | .none => startFresh maxConcurrent params lockToken
      | .stopping =>
          pure (.retry "A buffer for this channel is currently stopping -- retry in a moment")
      | .dead => do
          let deletion ← deleteBufferStateIfInstance params.channelUuid existing
          if deletion = .replaced ∨ deletion = .contended then
            pure (.retry "The buffer for this channel changed while restarting -- retry in a moment")
          else do
            removeChannelFiles existing
            startFresh maxConcurrent params lockToken
      | .staleConfig => do
          let _ ← teardownBuffer existing .never true
          startFresh maxConcurrent params lockToken
      | .reattach => do
          match ← updateBufferState params.channelUuid (attachUnlessStopping params) none with
          | .written _ => pure (.done "Reattached to already-running buffer")
          | _ =>
              pure (.retry "The buffer for this channel changed while attaching -- retry in a moment")

/-- `_start_buffer`. -/
def startBuffer (maxConcurrent : Nat) (params : StartParams) : Prog Thread Reply := do
  match ← acquireStartBufferLock (.channel params.channelUuid) with
  | none =>
      pure (.retry
        "Another start_buffer call for this channel is already in progress -- retry in a moment")
  | some lockToken =>
      tryFinally (startBufferLocked maxConcurrent params lockToken)
        (releaseStartBufferLock (.channel params.channelUuid) lockToken)

/-! ## stop and heartbeat -/

/-- The answer to a request with an earlier buffer's token. -/
def replacedBufferMessage : String :=
  "this caller's buffer was replaced by a newer one for the same channel -- call start_buffer again"

/-- `drop_viewer` of `_stop_buffer`. -/
def dropViewerOf (viewerId : Text) (suppliedToken : Option Text) (current : BufferState) :
    Prog Thread (Option BufferState) :=
  if isStaleAccessToken current suppliedToken then pure none
  else do
    let now ← ask .sharedNow
    pure (dropViewer current viewerId suppliedToken now)

/-- The update of a heartbeat, and of a manifest's touch. -/
def heartbeatOf (viewerId : Option Text) (suppliedToken : Option Text) (current : BufferState) :
    Prog Thread (Option BufferState) :=
  if isStaleAccessToken current suppliedToken then pure none
  else do
    let now ← ask .sharedNow
    pure (some (applyHeartbeat current now viewerId))

/-- The update of a read. -/
def readHeartbeatOf (viewerId : Option Text) (suppliedToken : Option Text)
    (current : BufferState) : Prog Thread (Option BufferState) := do
  let now ← ask .sharedNow
  pure (applyReadHeartbeat current now viewerId suppliedToken)

/-- What a request of a viewer carries. -/
structure ViewerRequest where
  channelUuid : Text
  viewerId : Option Text
  suppliedToken : Option Text
deriving DecidableEq, Repr

/-- `_stop_buffer`. -/
def stopBuffer (request : ViewerRequest) : Prog Thread Reply := do
  let replaced : Reply := .done "this caller's buffer was already replaced; nothing stopped"
  match ← ask (.state request.channelUuid) with
  | none => pure (.done "no buffer was running")
  | some state =>
      if isStaleAccessToken state request.suppliedToken then pure replaced
      else
        match request.viewerId with
        | some viewerId => do
            match ← updateBufferState request.channelUuid
                (dropViewerOf viewerId request.suppliedToken) none with
            | .absent => pure (.done "no buffer was running")
            | .declined => pure replaced
            | .contended =>
                pure (.retry "The buffer for this channel is busy -- retry in a moment")
            | .written state =>
                if state.viewers ≠ [] then
                  pure (.done "viewer removed; buffer still active for other viewers")
                else if ← teardownBuffer state .viewersListed false then
                  pure (.done "Buffer stopped")
                else pure (.done "viewer removed; buffer still active for other viewers")
        | none => do
            let _ ← teardownBuffer state .never false
            pure (.done "Buffer stopped")

/-- `_heartbeat`. -/
def heartbeat (request : ViewerRequest) : Prog Thread Reply := do
  match ← updateBufferState request.channelUuid
      (heartbeatOf request.viewerId request.suppliedToken) none with
  | .absent => pure (.error "no buffer running for this channel")
  | .declined => pure (.fail replacedBufferMessage)
  | .contended => pure (.error "could not record the heartbeat (buffer state busy) -- retry")
  | .written _ => pure (.done "Heartbeat refreshed")

/-- `_touch_heartbeat` of the file server. -/
def touchHeartbeat (request : ViewerRequest) : Prog Thread Unit :=
  tryExcept
    (do
      let _ ← updateBufferState request.channelUuid
        (readHeartbeatOf request.viewerId request.suppliedToken) none
      pure ())
    fun _ => pure ()

/-! ## the manifest -/

/-- The sizes of the entries, one `stat` after the other, and who has written
into the directories they were found in. -/
def sizeSegments (state : BufferState) (old : List SizedSegment) :
    List ListedSegment → Prog Thread (List SizedSegment × List ProcessId)
  | [] => pure ([], [])
  | seg :: rest => do
      let reusable := if rest.isEmpty then none else old.find? (·.sequence = seg.sequence)
      let found ←
        match reusable.filter fun reused => reused.segName = seg.segName with
        | some reused => pure (some (reused.size, []))
        | none => ask (.segmentSize (channelDir state) seg.segName state.process)
      let (sized, writers) ← sizeSegments state old rest
      match found with
      | none => pure (sized, writers)
      | some (size, sizedBy) =>
          pure (⟨seg.sequence, seg.segName, size, seg.durationMs⟩ :: sized, sizedBy ++ writers)

/-- The entries of a playlist that `stat` has found, its lines not read yet, and
who has written what they are made from. -/
def findSegments (py : Python) (worker : Nat) (state : BufferState) (stamp : Int × Nat) :
    Prog Thread ((Int × List SizedSegment) × List ProcessId) := do
  let cached := (← ask (.cachedManifest worker state.channelUuid)).filter fun cached =>
    state.accessToken.any (· ≠ []) && cached.1.instanceToken == state.accessToken
  match cached.filter fun cached => (cached.1.playlistMtimeNs, cached.1.playlistSize) = stamp with
  | some (unchanged, madeBy) =>
      match unchanged.bySequence.getLast? with
      | none => pure ((unchanged.mediaSequence, []), madeBy)
      | some newest => do
          match ← ask (.segmentSize (channelDir state) newest.segName state.process) with
          | none => pure ((unchanged.mediaSequence, unchanged.bySequence.dropLast), madeBy)
          | some (size, sizedBy) => do
              let ordered := unchanged.bySequence.dropLast ++ [{ newest with size }]
              call (.rememberManifest worker state.channelUuid
                ({ unchanged with bySequence := ordered }, sizedBy ++ madeBy))
              pure ((unchanged.mediaSequence, ordered), sizedBy ++ madeBy)
  | none => do
      match ← ask (.playlistText (channelDir state) state.process) with
      | none => .raise .fileNotFound
      | some (lines, writtenBy) => do
          let (mediaSequence, parsed) := parseLivePlaylistLines py lines
          let (oldBySequence, madeBy) :=
            match cached with
            | some (cached, madeBy) => (cached.bySequence, madeBy)
            | none => ([], [])
          let (ordered, sizedBy) ← sizeSegments state oldBySequence parsed
          let writers := sizedBy ++ writtenBy ++ madeBy
          call (.rememberManifest worker state.channelUuid
            ({ instanceToken := state.accessToken
               playlistMtimeNs := stamp.1
               playlistSize := stamp.2
               mediaSequence
               bySequence := ordered }, writers))
          pure ((mediaSequence, ordered), writers)

/-- `_get_live_manifest`, step by step. -/
def readLiveManifest (py : Python) (worker : Nat) (state : BufferState) :
    Prog Thread (Except ManifestError Manifest × List ProcessId) := do
  let path := channelDir state
  if ¬ py.isUuid state.channelUuid then
    pure (.error (.invalidChannelUuid state.channelUuid), [])
  else
    match ← ask (.playlistStat path) with
    | none =>
        if ← ask (.isProcessAlive state.process) then
          pure (.error (.runtime playlistNotFoundMessage), [])
        else do
          let ffmpegLog ← ask (.ffmpegLog path)
          pure (.error (.bufferFailed ffmpegLog), [])
    | some _ =>
        match ← ask (.playlistStat path) with
        | none => pure (.error (.runtime playlistNotFoundMessage), [])
        | some stamp => do
            let alive ← ask (.isProcessAlive state.process)
            let (found, writers) ← findSegments py worker state stamp
            pure (manifestAnswer (!alive) found, writers)

/-- `_get_live_manifest_action`. -/
def getLiveManifestAction (py : Python) (worker : Nat) (request : ViewerRequest) :
    Prog Thread Reply := do
  match ← ask (.state request.channelUuid) with
  | none => pure (.fail "no buffer running for this channel -- call start_buffer first")
  | some state =>
      if isStaleAccessToken state request.suppliedToken then pure (.fail replacedBufferMessage)
      else
        match ← (readLiveManifest py worker state).tryExcept fun _ =>
            pure (.error (.runtime "manifest build failed"), []) with
        | (.error (.bufferFailed _), _) => do
            let _ ← teardownBuffer state .never false
            pure (.fail "ffmpeg exited before producing any segments")
        | (.error _, _) => pure (.error "no manifest")
        | (.ok manifest, writers) => do
            let _ ← updateBufferState request.channelUuid
              (heartbeatOf request.viewerId request.suppliedToken) none
            call (.answerManifest request.suppliedToken manifest writers)
            pure (.done "")

/-! ## the reaper and the scrub -/

/-- `_is_untracked_orphan`. -/
def isUntrackedOrphan (path : DirPath) : Prog Thread Bool := do
  if (← ask (.state path.2)).isSome then pure false
  else
    match ← ask (.oldEnough path) with
    | none => pure false
    | some oldEnough =>
        match ← liveOwner path with
        | none => pure oldEnough
        | some owner => ask (.startedLongAgo owner)

/-- `_find_orphaned_channel_dirs`, the names found. -/
def findOrphans (storagePath : Text) : List Text → Prog Thread (List Text)
  | [] => pure []
  | name :: rest => do
      let orphan ← isUntrackedOrphan (storagePath, name)
      let others ← findOrphans storagePath rest
      pure (if orphan then name :: others else others)

/-- `_scrub_orphaned_dirs` for the orphans found. -/
def scrubOrphans (storagePath : Text) : List Text → Prog Thread Unit
  | [] => pure ()
  | name :: rest => do
      match ← acquireStartBufferLock (.channel name) with
      | none => scrubOrphans storagePath rest
      | some token => do
          tryFinally
            (do
              if ← isUntrackedOrphan (storagePath, name) then do
                let _ ← reapUntrackedFfmpeg (storagePath, name)
                clearChannelDir (storagePath, name)
              else pure ())
            (releaseStartBufferLock (.channel name) token)
          scrubOrphans storagePath rest

/-- `_scrub_orphaned_dirs`. -/
def scrubOrphanedDirs (storagePath : Text) : Prog Thread Unit := do
  let names ← ask (.channelDirs storagePath)
  let orphans ← findOrphans storagePath names
  scrubOrphans storagePath orphans

/-- `_stale_viewers`, over the viewers that have a heartbeat. -/
def staleViewers (channelUuid : Text) : Dict Int → Prog Thread (Dict Int)
  | [] => pure []
  | (viewerId, seen) :: rest => do
      let stale ← call (.idle channelUuid (some viewerId) seen)
      let others ← staleViewers channelUuid rest
      pure (if stale then (viewerId, seen) :: others else others)

/-- The heartbeats of the viewers listed. -/
def listedHeartbeats (state : BufferState) : Dict Int :=
  state.viewers.filterMap fun viewerId => (state.viewerHeartbeats.get viewerId).map (viewerId, ·)

/-- The reaper's tick for one buffer. -/
def reapBuffer (channelUuid : Text) : Prog Thread Unit := do
  match ← ask (.state channelUuid) with
  | none => pure ()
  | some state => do
      let stale ← staleViewers channelUuid (listedHeartbeats state)
      if stale ≠ [] then do
        let _ ← updateBufferState channelUuid (fun fresh => pure (dropStaleViewers fresh stale))
          none
      if ← call (.idle channelUuid none state.lastHeartbeat) then do
        let _ ← teardownBuffer state (.heartbeatSince state.lastHeartbeat) false

/-- The reaper's tick for all of them. -/
def reapBuffers : List Text → Prog Thread Unit
  | [] => pure ()
  | channelUuid :: rest => do
      reapBuffer channelUuid
      reapBuffers rest

/-- A tick of the reaper that leads. -/
def reaperTick (storagePath : Text) : Prog Thread Unit :=
  tryExcept
    (do
      let keys ← listBufferKeys
      reapBuffers keys
      scrubOrphanedDirs storagePath)
    fun _ => pure ()

/-- `_stop_all` for the buffers found. -/
def stopBuffers : List Text → Prog Thread Unit
  | [] => pure ()
  | channelUuid :: rest => do
      match ← ask (.state channelUuid) with
      | none => stopBuffers rest
      | some state => do
          let _ ← teardownBuffer state .never false
          stopBuffers rest

/-- `_stop_all`. -/
def stopAll : Prog Thread Unit := do
  let keys ← listBufferKeys
  stopBuffers keys

/-! ## all of them -/

/-- What a worker may be asked to do. -/
inductive Op where
  | startBuffer (params : StartParams)
  | stopBuffer (request : ViewerRequest)
  | heartbeat (request : ViewerRequest)
  | touchHeartbeat (request : ViewerRequest)
  | getLiveManifest (worker : Nat) (request : ViewerRequest)
  | reaperTick (storagePath : Text)
  | scrubOrphanedBuffers (storagePath : Text)
  | stopAll
deriving DecidableEq, Repr

/-- Its steps. -/
def Op.program (py : Python) (maxConcurrent : Nat) : Op → Prog Thread Unit
  | .startBuffer params => (TimeshiftBuffer.startBuffer maxConcurrent params).bind fun _ => pure ()
  | .stopBuffer request => (TimeshiftBuffer.stopBuffer request).bind fun _ => pure ()
  | .heartbeat request => (TimeshiftBuffer.heartbeat request).bind fun _ => pure ()
  | .touchHeartbeat request => TimeshiftBuffer.touchHeartbeat request
  | .getLiveManifest worker request =>
      (getLiveManifestAction py worker request).bind fun _ => pure ()
  | .reaperTick storagePath => TimeshiftBuffer.reaperTick storagePath
  | .scrubOrphanedBuffers storagePath => scrubOrphanedDirs storagePath
  | .stopAll => TimeshiftBuffer.stopAll

/-- The plugin's workers over what they share, with its `max_concurrent_buffers`:
each thread does what it is asked to. -/
def plugin (py : Python) (maxConcurrent : Nat) (requests : Thread → Op) :
    Machine (World Thread) Thread Choice Env (Cmd Thread) Cmd.Answer Failure where
  exec := World.exec
  env := World.env
  program t := (requests t).program py maxConcurrent

end TimeshiftBuffer

end DispatcharrPvr
