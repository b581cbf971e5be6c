import DispatcharrPvr.TimeshiftBuffer.Effects

/-!
# TimeshiftBuffer.Conduct

What holds of the shared world throughout, what a thread may rely on the others
to keep, and what it promises of each command it calls: which removals it is
about, which lock it holds, what it knows of the channel's state then.

Some of it holds only where certain steps are supposed not to happen; what is
supposed is a parameter, and each clause names what it needs.
-/

namespace DispatcharrPvr

namespace TimeshiftBuffer

open Interleaving

/-! ## what a run is about -/

variable {Thread : Type} [DecidableEq Thread]

/-- The settings, what each thread is asked to do, whether Redis runs scripts, and
the steps that are supposed to happen. -/
structure Setting (Thread : Type) where
  py : Python
  maxConcurrent : Nat
  requests : Thread → Op
  scripts : Bool
  supposed : Thread → World Thread → Cmd Thread → Choice → Prop

namespace World

/-- The process that the owner file of a directory names. -/
def ownerAt (s : World Thread) (path : DirPath) : Option ProcessId := (s.dirs path).bind (·.owner)

/-- Neither lock of the thread's start has expired since its last renewal. -/
def Unexpired (s : World Thread) (t : Thread) (channelUuid : Text) : Prop :=
  ∀ name ∈ [LockName.channel channelUuid, .slot], ∀ token ∈ s.holding t name, token ∉ s.expired

/-- Both locks of the thread's start are its own. -/
def Locked (s : World Thread) (t : Thread) (channelUuid : Text) : Prop :=
  ∀ name ∈ [LockName.channel channelUuid, .slot],
    ∃ token, s.holding t name = some token ∧ s.locks name = some token

/-- A state that a start has registered, whatever has become of it since. -/
def Seen (s : World Thread) (state : BufferState) : Prop :=
  ∃ R ∈ s.registered, R.Continues state

/-- The thread has spawned no process. -/
def Unspawned (s : World Thread) (t : Thread) : Prop := ∀ e ∈ s.spawned, e.thread ≠ t

/-- A process was spawned in a directory. -/
def SpawnedAt (s : World Thread) (process : ProcessId) (path : DirPath) : Prop :=
  ∃ e ∈ s.spawned, e.process = process ∧ e.path = path

/-- The step finds the owner file of its directory as its own start left it. -/
def KeepsOwners (s : World Thread) : Cmd Thread → Choice → Prop
  | .moveAside path _, _ => ∀ p, s.ownerAt path = some p → s.running p = false
  | .writeOwnerTmp path _, choice => choice.fileError = false ∧ (s.dirs path).isSome
  | .unlinkOwnerTmp _, _ => False
  | .replaceOwner path process, choice =>
      choice.fileError = false ∧
        (∃ dir, s.dirs path = some dir ∧ dir.ownerTmp = some process) ∧
        ∀ p, s.ownerAt path = some p → s.running p = true → p = process
  | _, _ => True

/-- The file read for an instance is in a directory that it alone has written into. -/
def ReadsOwn (s : World Thread) : Query → Prop
  | .playlistText path instance' | .segmentSize path _ instance' =>
      ∀ dir, s.dirs path = some dir → ∀ w ∈ dir.writers, w = instance'
  | _ => True

end World

/-- What an operation tears down, and unless what. -/
def Op.removes : Op → BufferState → AbortIf → Prop
  | .startBuffer params, state, abortIf =>
      state.channelUuid = params.channelUuid ∧ abortIf = .never
  | .stopBuffer request, state, abortIf =>
      state.channelUuid = request.channelUuid ∧
        isStaleAccessToken state request.suppliedToken = false ∧
        abortIf = if request.viewerId.isSome then .viewersListed else .never
  | .getLiveManifest _ request, state, abortIf =>
      state.channelUuid = request.channelUuid ∧
        isStaleAccessToken state request.suppliedToken = false ∧ abortIf = .never
  | .reaperTick _, state, abortIf => abortIf = .heartbeatSince state.lastHeartbeat
  | .stopAll, _, abortIf => abortIf = .never
  | _, _, _ => False

/-- What an operation makes of a buffer's state, at a time up to now. -/
inductive Changes (s : World Thread) (t : Thread) :
    Op → Text → BufferState → BufferState → Option ProcessId → Prop
  | attaches {params old now viewerNow} (hstopping : old.stopping = false)
      (hnow : now ≤ s.clock) (hviewer : viewerNow ≤ s.clock) :
      Changes s t (.startBuffer params) params.channelUuid old
        (attach old params.viewerId params.token now viewerNow) none
  | drops {request viewerId old new now} (hviewer : request.viewerId = some viewerId)
      (hnow : now ≤ s.clock)
      (hnew : dropViewer old viewerId request.suppliedToken now = some new) :
      Changes s t (.stopBuffer request) request.channelUuid old new none
  | heartbeats {request old now} (hnow : now ≤ s.clock)
      (hcurrent : isStaleAccessToken old request.suppliedToken = false) :
      Changes s t (.heartbeat request) request.channelUuid old
        (applyHeartbeat old now request.viewerId) none
  | reads {request old new now} (hnow : now ≤ s.clock)
      (hnew : applyReadHeartbeat old now request.viewerId request.suppliedToken = some new) :
      Changes s t (.touchHeartbeat request) request.channelUuid old new none
  | touches {worker request old now} (hnow : now ≤ s.clock)
      (hcurrent : isStaleAccessToken old request.suppliedToken = false) :
      Changes s t (.getLiveManifest worker request) request.channelUuid old
        (applyHeartbeat old now request.viewerId) none
  | prunes {storagePath channelUuid stale old new}
      (hstale : ∀ e ∈ stale, (t, channelUuid, some e.1, e.2) ∈ s.idled)
      (hnew : dropStaleViewers old stale = some new) :
      Changes s t (.reaperTick storagePath) channelUuid old new none
  | marks {op state abortIf old now} (hremoves : op.removes state abortIf) (hseen : s.Seen state)
      (hsame : old.sameBufferInstance state = true) (habort : abortIf.holds old = false) :
      Changes s t op state.channelUuid old (markStopping old now) (some state.process)

namespace Setting

variable (S : Setting Thread)

/-- Redis runs scripts, no marker of a teardown loses its last try, and no delete does
that the thread makes under the channel's lock. -/
structure Guarded : Prop where
  scripts : S.scripts = true
  lastCas : ∀ t s channelUuid expected new process choice,
    S.supposed t s (.casState channelUuid expected new (some process) 0) choice →
      s.states.get channelUuid = some expected
  lastCad : ∀ t s channelUuid expected instance' choice,
    S.supposed t s (.cadState channelUuid expected instance' 0) choice →
      (s.holding t (.channel channelUuid)).isSome → s.states.get channelUuid = some expected

/-- And no lock of a start expires between its last renewal and the write that
registers its buffer. -/
structure Orderly : Prop extends S.Guarded where
  punctual : ∀ t s channelUuid state choice,
    S.supposed t s (.setState channelUuid state .registration) choice →
      s.Unexpired t channelUuid

/-- Every step finds the owner files as their own starts left them. -/
def OwnersKept : Prop := ∀ t s c choice, S.supposed t s c choice → s.KeepsOwners c choice

/-- A manifest's files are read from directories that its instance alone has
written into, and each start draws a token of its own. -/
structure CleanReads : Prop where
  reads : ∀ t s q choice, S.supposed t s (.query q) choice → s.ReadsOwn q
  tokens : ∀ t t' params params', S.requests t = .startBuffer params →
    S.requests t' = .startBuffer params' → params.token = params'.token → t = t'

/-- An operation removes this buffer. -/
def Removing (t : Thread) (s : World Thread) (state : BufferState) : Prop :=
  (∃ abortIf, (S.requests t).removes state abortIf) ∧ s.Seen state

/-- While the channel's lock has this token, the channel's state can only be that of
this instance. -/
def Under (s : World Thread) (channelUuid : Text) (token : LockToken Thread)
    (only : Option BufferState) : Prop :=
  S.Orderly → s.locks (.channel channelUuid) = some token →
    ∀ state, s.states.get channelUuid = some state → ∃ A ∈ only, state.sameBufferInstance A = true

/-! ## the invariant -/

/-- What holds throughout. -/
structure Inv (s : World Thread) : Prop where
  scripts : s.scripts = S.scripts
  keys : (s.states.map Prod.fst).Nodup
  since : ∀ channelUuid, s.since channelUuid ≤ s.scans
  lockSerial : ∀ name token, s.locks name = some token → token.serial < s.serial
  holding : ∀ t name token, s.holding t name = some token →
    token.thread = t ∧ token.serial < s.serial
  running : ∀ p, s.running p = true → p ∈ s.born
  spawnedBorn : ∀ e ∈ s.spawned, e.process ∈ s.born
  spawnedLock : ∀ e ∈ s.spawned, ∀ token, e.lock = some token →
    token.thread = e.thread ∧ token.serial < s.serial
  byThread : ∀ e ∈ s.spawned, ∀ e' ∈ s.spawned, e.thread = e'.thread → e = e'
  byProcess : ∀ e ∈ s.spawned, ∀ e' ∈ s.spawned, e.process = e'.process → e = e'
  dirs : ∀ path dir, s.dirs path = some dir → ∀ p,
    dir.owner = some p ∨ dir.ownerTmp = some p ∨ p ∈ dir.tenants → s.SpawnedAt p path
  tracked : ∀ channelUuid state, s.states.get channelUuid = some state →
    state.channelUuid = channelUuid ∧ s.Seen state
  viewers : S.Guarded → ∀ channelUuid state, s.states.get channelUuid = some state →
    state.viewers.Nodup
  registered : ∀ R ∈ s.registered, ∃ e ∈ s.spawned, e.process = R.process ∧
    e.path = channelDir R ∧ e.thread ∈ s.registering ∧
      ∃ params, S.requests e.thread = .startBuffer params ∧ R.accessToken = some params.token
  registering : ∀ t ∈ s.registering, ∃ e ∈ s.spawned, e.thread = t
  caches : ∀ worker channelUuid entry, (s.caches worker).get channelUuid = some entry →
    ∃ R ∈ s.registered, entry.1.instanceToken = R.accessToken ∧
      (S.CleanReads → ∀ w ∈ entry.2, w = R.process)

/-! ## what a thread relies on -/

/-- What the others keep. -/
structure Rely (t : Thread) (s s' : World Thread) : Prop where
  locks : ∀ name token, token.thread = t → s'.locks name = some token →
    s.locks name = some token
  kept : S.Guarded → ∀ name token, token.thread = t → s.locks name = some token →
    s'.locks name = some token ∨ token ∈ s'.expired
  expired : ∀ token ∈ s.expired, token.thread = t → token ∈ s'.expired
  channel : S.Orderly → ∀ channelUuid token, token.thread = t →
    s'.locks (.channel channelUuid) = some token → ∀ new,
      s'.states.get channelUuid = some new → ∃ old, s.states.get channelUuid = some old ∧
        new.sameBufferInstance old = true
  slot : S.Orderly → ∀ token, token.thread = t → s'.locks .slot = some token →
    ∀ channelUuid, (s'.states.get channelUuid).isSome →
      (s.states.get channelUuid).isSome ∧ s'.since channelUuid = s.since channelUuid
  scans : s.scans ≤ s'.scans
  clock : s.clock ≤ s'.clock
  holding : s'.holding t = s.holding t
  dead : ∀ p ∈ s.born, s'.running p = true → s.running p = true
  born : ∀ p ∈ s.born, p ∈ s'.born
  spawned : ∀ e ∈ s.spawned, e ∈ s'.spawned
  own : ∀ e ∈ s'.spawned, e.thread = t → e ∈ s.spawned
  registered : ∀ R ∈ s.registered, R ∈ s'.registered
  registering : t ∈ s.registering ↔ t ∈ s'.registering
  idled : ∀ e ∈ s.idled, e ∈ s'.idled
  owners : S.OwnersKept → ∀ path, ∀ p ∈ s.born, s.ownerAt path = some p →
    s'.running p = true → s'.ownerAt path = some p

/-! ## what a thread promises -/

/-- A start's write of its new buffer. -/
structure Registers (t : Thread) (s : World Thread) (channelUuid : Text) (state : BufferState) :
    Prop where
  ofChannel : state.channelUuid = channelUuid
  viewers : state.viewers.Nodup
  first : t ∉ s.registering
  spawned : ∃ e ∈ s.spawned, e.thread = t ∧ e.process = state.process ∧
    e.path = channelDir state ∧ ∃ token, e.lock = some token ∧
      s.holding t (.channel channelUuid) = some token
  token : ∃ params, S.requests t = .startBuffer params ∧ state.accessToken = some params.token
  locked : S.Guarded → s.Unexpired t channelUuid → s.Locked t channelUuid
  alone : S.Orderly → s.Unexpired t channelUuid →
    s.states.get channelUuid = none ∧ s.states.length < S.maxConcurrent
  named : S.OwnersKept → s.running state.process = true →
    s.ownerAt (channelDir state) = some state.process

/-- What a thread promises of a command. -/
def Promise (t : Thread) (s : World Thread) : Cmd Thread → Prop
  | .setState channelUuid state .registration => S.Registers t s channelUuid state
  | .setState channelUuid state _ =>
      ¬ S.Guarded ∧ state.channelUuid = channelUuid ∧ s.Seen state
  | .casState channelUuid expected new instance' _ =>
      Changes s t (S.requests t) channelUuid expected new instance'
  | .cadState channelUuid expected instance' _ =>
      ∃ state, S.Removing t s state ∧ channelUuid = state.channelUuid ∧
        instance' = state.process ∧ expected.sameBufferInstance state = true
  | .deleteState channelUuid instance' =>
      S.Guarded → ∃ state token, S.Removing t s state ∧ channelUuid = state.channelUuid ∧
        instance' = state.process ∧ s.holding t (.channel channelUuid) = some token ∧
        S.Under s channelUuid token (some state)
  | .releaseLock _ token | .renewLock _ token => token.thread = t
  | .deleteLock .. => ¬ S.Guarded
  | .expireLock _ token => token.thread = t
  | .moveAside path instance' =>
      (∃ token only, s.holding t (.channel path.2) = some token ∧
        S.Under s path.2 token only ∧ instance' = only.map (·.process) ∧ s.Unspawned t ∧
        ∀ state ∈ only, S.Removing t s state) ∨
      s.holding t (.channel path.2) = none ∧ ∃ state, S.Removing t s state ∧
        instance' = some state.process ∧ path = channelDir state
  | .popen _ => s.Unspawned t
  | .killpg process none _ =>
      ∃ path token, s.holding t (.channel path.2) = some token ∧ S.Under s path.2 token none ∧
        s.Unspawned t ∧ s.SpawnedAt process path
  | .killpg process (some instance') _ =>
      instance' = process ∧ ((∃ state, S.Removing t s state ∧ state.process = process) ∨
        ∃ e ∈ s.spawned, e.thread = t ∧ e.process = process)
  | .writeOwnerTmp path process => s.SpawnedAt process path
  | .rememberManifest _ _ entry =>
      ∃ R ∈ s.registered, entry.1.instanceToken = R.accessToken ∧
        (S.CleanReads → ∀ w ∈ entry.2, w = R.process)
  | .answerManifest suppliedToken _ writers =>
      ∃ R ∈ s.registered, isStaleAccessToken R suppliedToken = false ∧
        (S.CleanReads → ∀ w ∈ writers, w = R.process)
  | _ => True

variable {S} {t : Thread} {s s' s'' : World Thread}

omit [DecidableEq Thread] in
theorem Rely.refl (t : Thread) (s : World Thread) : S.Rely t s s where
  locks _ _ _ hl := hl
  kept _ _ _ _ hl := .inl hl
  expired _ hexp _ := hexp
  channel _ _ _ _ _ new hnew := ⟨new, hnew, (BufferState.Continues.refl new).same⟩
  slot _ _ _ _ _ hnew := ⟨hnew, rfl⟩
  scans := Nat.le_refl _
  clock := Int.le_refl _
  holding := rfl
  dead _ _ hr := hr
  born _ hp := hp
  spawned _ he := he
  own _ he _ := he
  registered _ hR := hR
  registering := Iff.rfl
  idled _ he := he
  owners _ _ _ _ hown _ := hown

omit [DecidableEq Thread] in
theorem Rely.trans (h : S.Rely t s s') (h' : S.Rely t s' s'') : S.Rely t s s'' where
  locks name token ht hl := h.locks name token ht (h'.locks name token ht hl)
  kept hg name token ht hl := by
    rcases h.kept hg name token ht hl with hl' | hexp
    · exact h'.kept hg name token ht hl'
    · exact .inr (h'.expired token hexp ht)
  expired token hexp ht := h'.expired token (h.expired token hexp ht) ht
  channel ho channelUuid token ht hl new hnew := by
    obtain ⟨mid, hmid, hsame'⟩ := h'.channel ho channelUuid token ht hl new hnew
    obtain ⟨old, hold, hsame⟩ :=
      h.channel ho channelUuid token ht (h'.locks _ token ht hl) mid hmid
    exact ⟨old, hold, BufferState.same_trans hsame' hsame⟩
  slot ho token ht hl channelUuid hnew := by
    obtain ⟨hmid, hsince'⟩ := h'.slot ho token ht hl channelUuid hnew
    obtain ⟨hold, hsince⟩ := h.slot ho token ht (h'.locks _ token ht hl) channelUuid hmid
    exact ⟨hold, hsince'.trans hsince⟩
  scans := h.scans.trans h'.scans
  clock := h.clock.trans h'.clock
  holding := h'.holding.trans h.holding
  dead p hp hr := h.dead p hp (h'.dead p (h.born p hp) hr)
  born p hp := h'.born p (h.born p hp)
  spawned e he := h'.spawned e (h.spawned e he)
  own e he ht := h.own e (h'.own e he ht) ht
  registered R hR := h'.registered R (h.registered R hR)
  registering := h.registering.trans h'.registering
  idled e he := h'.idled e (h.idled e he)
  owners ho path p hp hown hr :=
    h'.owners ho path p (h.born p hp) (h.owners ho path p hp hown (h'.dead p (h.born p hp) hr)) hr

/-- How the plugin's threads conduct themselves. -/
def conduct (S : Setting Thread) : Discipline (plugin S.py S.maxConcurrent S.requests) where
  inv := S.Inv
  rely := S.Rely
  allowed := S.supposed
  allowedEnv := fun _ _ => True
  promise := S.Promise
  rely_refl := Rely.refl
  rely_trans := Rely.trans

end Setting

end TimeshiftBuffer

end DispatcharrPvr
