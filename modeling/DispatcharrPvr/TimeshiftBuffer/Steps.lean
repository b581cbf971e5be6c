import DispatcharrPvr.TimeshiftBuffer.Conduct

/-!
# TimeshiftBuffer.Steps

A step as promised keeps what holds throughout, and what the other threads rely
on: by the cases of what a step does.
-/

namespace DispatcharrPvr

namespace TimeshiftBuffer

open Interleaving

variable {Thread : Type} {S : Setting Thread} {t : Thread}
  {s s' : World Thread} {c : Cmd Thread}

/-! ## small facts -/

namespace World

theorem Seen.mono {state : BufferState} (h : s.Seen state)
    (hregistered : ∀ R ∈ s.registered, R ∈ s'.registered) : s'.Seen state := by
  obtain ⟨R, hR, hcontinues⟩ := h
  exact ⟨R, hregistered R hR, hcontinues⟩

theorem Seen.continues {old new : BufferState} (h : s.Seen old) (hnew : old.Continues new) :
    s.Seen new := by
  obtain ⟨R, hR, hcontinues⟩ := h
  exact ⟨R, hR, hcontinues.trans hnew⟩

theorem seen_markStopping {state : BufferState} {now : Int} :
    s.Seen (markStopping state now) ↔ s.Seen state :=
  ⟨fun ⟨R, hR, h⟩ => ⟨R, hR, h.channelUuid, h.process, h.startedAt, h.storagePath, h.accessToken⟩,
    fun h => h.continues (BufferState.continues_markStopping state now)⟩

theorem SpawnedAt.mono {p : ProcessId} {path : DirPath} (h : s.SpawnedAt p path)
    (hspawned : ∀ e ∈ s.spawned, e ∈ s'.spawned) : s'.SpawnedAt p path := by
  obtain ⟨e, he, hp⟩ := h
  exact ⟨e, hspawned e he, hp⟩

theorem running_iff {p : ProcessId} : s.running p = true ↔ s.processes p.1 = some p.2 := by
  simp [running]

/-- Who runs where a process has gone ran before. -/
theorem running_of_gone {pid : Nat} {p : ProcessId}
    (hprocesses : s'.processes = update s.processes pid none) (h : s'.running p = true) :
    s.running p = true := by
  rw [running_iff, hprocesses] at h
  rw [running_iff]
  simp only [update] at h
  split at h
  · contradiction
  · exact h

/-- And where one has come up, save itself. -/
theorem running_of_come {process p : ProcessId}
    (hprocesses : s'.processes = update s.processes process.1 (some process.2))
    (h : s'.running p = true) : p = process ∨ s.running p = true := by
  rw [running_iff, hprocesses] at h
  rw [running_iff]
  simp only [update] at h
  split at h
  · next heq => exact .inl (Prod.ext heq (Option.some.inj h).symm)
  · exact .inr h

theorem get_dropState {channelUuid : Text} :
    (s.dropState channelUuid).states.get channelUuid = none := by
  simp [dropState, Dict.get_erase]

theorem holding_hold [DecidableEq Thread] {name name' : LockName} {t' : Thread}
    {token : Option (LockToken Thread)} : (s.hold t name token).holding t' name' =
      if t' = t ∧ name' = name then token else s.holding t' name' := by
  by_cases ht : t' = t
  · subst ht
    simp [hold, update]
  · simp [hold, update_of_ne _ _ ht, ht]

theorem ownerAt_setDir {path path' : DirPath} {dir : Option Directory} :
    (s.setDir path dir).ownerAt path' =
      if path' = path then dir.bind (·.owner) else s.ownerAt path' := by
  by_cases h : path' = path
  · subst h
    simp [ownerAt, setDir]
  · simp [ownerAt, setDir, update_of_ne _ _ h, h]

/-- A directory replaced by one with the same owner. -/
theorem ownerAt_setDir_self {path : DirPath} {dir : Option Directory}
    (h : dir.bind (·.owner) = s.ownerAt path) (path' : DirPath) :
    (s.setDir path dir).ownerAt path' = s.ownerAt path' := by
  rw [ownerAt_setDir]
  split
  · next heq => rw [h, heq]
  · rfl

end World

theorem Changes.continues {op : Op} {channelUuid : Text} {old new : BufferState}
    {instance' : Option ProcessId} (h : Changes s t op channelUuid old new instance') :
    old.Continues new := by
  cases h with
  | attaches => exact BufferState.continues_attach ..
  | drops _ _ hnew => exact BufferState.continues_dropViewer hnew
  | heartbeats => exact BufferState.continues_applyHeartbeat ..
  | reads _ hnew => exact BufferState.continues_applyReadHeartbeat hnew
  | touches => exact BufferState.continues_applyHeartbeat ..
  | prunes _ hnew => exact BufferState.continues_dropStaleViewers hnew
  | marks => exact BufferState.continues_markStopping ..

theorem Changes.nodup_viewers {op : Op} {channelUuid : Text} {old new : BufferState}
    {instance' : Option ProcessId} (h : Changes s t op channelUuid old new instance')
    (hold : old.viewers.Nodup) : new.viewers.Nodup := by
  cases h with
  | attaches => exact BufferState.nodup_attach hold ..
  | drops _ _ hnew => exact BufferState.nodup_dropViewer hold hnew
  | heartbeats => exact BufferState.nodup_applyHeartbeat hold ..
  | reads _ hnew => exact BufferState.nodup_applyReadHeartbeat hold hnew
  | touches => exact BufferState.nodup_applyHeartbeat hold ..
  | prunes _ hnew => exact BufferState.nodup_dropStaleViewers hold hnew
  | marks => exact hold

theorem Changes.drop_current {request : ViewerRequest} {channelUuid : Text}
    {old new : BufferState} (h : Changes s t (.stopBuffer request) channelUuid old new none) :
    isStaleAccessToken new request.suppliedToken = false := by
  cases h with
  | drops _ _ hnew => exact BufferState.dropViewer_current hnew

namespace Setting

/-! ## under a lock -/

section Under

variable {state current : BufferState} {channelUuid : Text} {token : LockToken Thread}

theorem Under.of_none (h : s.states.get channelUuid = none) (only : Option BufferState) :
    S.Under s channelUuid token only := fun _ _ _ hfound => by simp [h] at hfound

/-- Another instance's state tells that the lock is lost. -/
theorem Under.of_other (h : S.Under s state.channelUuid token (some state))
    (hfound : s.states.get state.channelUuid = some current)
    (hother : current.sameBufferInstance state = false) :
    S.Under s state.channelUuid token none := fun horderly hstored => by
  obtain ⟨A, hA, hsame⟩ := h horderly hstored current hfound
  obtain rfl := Option.mem_some.mp hA
  simp [hother] at hsame

theorem Under.of_unguarded (h : ¬ S.Guarded) (only : Option BufferState) :
    S.Under s channelUuid token only :=
  fun horderly => absurd horderly.toGuarded h

end Under

/-! ## the invariant -/

/-- A token is one instance's. -/
theorem Inv.process_of_token (h : S.Inv s) (hclean : S.CleanReads) {R R' : BufferState}
    (hR : R ∈ s.registered) (hR' : R' ∈ s.registered) (htoken : R.accessToken = R'.accessToken) :
    R.process = R'.process := by
  obtain ⟨e, he, hp, -, -, params, hparams, hown⟩ := h.registered R hR
  obtain ⟨e', he', hp', -, -, params', hparams', hown'⟩ := h.registered R' hR'
  have hsame : params.token = params'.token :=
    Option.some.inj (hown.symm.trans (htoken.trans hown'))
  have hthread := hclean.tokens _ _ _ _ hparams hparams' hsame
  rw [← hp, ← hp', h.byThread e he e' he' hthread]

/-- A state that was there has its instance's token and process. -/
theorem Inv.seen (h : S.Inv s) {state : BufferState} (hseen : s.Seen state) :
    ∃ R ∈ s.registered, R.accessToken = state.accessToken ∧ R.process = state.process := by
  obtain ⟨R, hR, hcontinues⟩ := hseen
  obtain ⟨-, -, -, -, -, params, -, htoken⟩ := h.registered R hR
  exact ⟨R, hR, htoken.trans (hcontinues.accessToken _ htoken).symm, hcontinues.process.symm⟩

/-- A directory replaced by one that names nothing new. -/
theorem Inv.setDir (h : S.Inv s) {path : DirPath} {dir : Option Directory}
    (hdir : ∀ d ∈ dir, ∀ p, d.owner = some p ∨ d.ownerTmp = some p ∨ p ∈ d.tenants →
      s.SpawnedAt p path) : S.Inv (s.setDir path dir) :=
  { h with
    dirs := fun path' d hd p hp => by
      simp only [World.setDir, update] at hd
      split at hd
      · next heq => exact heq ▸ hdir d hd p hp
      · exact h.dirs path' d hd p hp }

theorem Inv.harm (h : S.Inv s) (victims : List ProcessId) (instance' : Option ProcessId) :
    S.Inv (s.harm victims instance') :=
  { h with }

/-- A state stored for the channel's instance, or for one that a start registers. -/
theorem Inv.putState (h : S.Inv s) {channelUuid : Text} {state : BufferState}
    (hchannel : state.channelUuid = channelUuid) (hseen : s.Seen state)
    (hviewers : S.Guarded → state.viewers.Nodup) :
    S.Inv (s.putState channelUuid state) :=
  { h with
    keys := Dict.nodup_set h.keys ..
    since := fun channel => by
      simp only [World.putState]
      split
      · exact h.since channel
      · simp only [update]
        split
        · exact Nat.le_refl _
        · exact h.since channel
    tracked := fun channel found hfound => by
      simp only [World.putState, Dict.get_set] at hfound
      split at hfound
      · next heq =>
          obtain rfl := Option.some.inj hfound
          exact ⟨hchannel.trans heq.symm, hseen⟩
      · exact h.tracked channel found hfound
    viewers := fun hguarded channel found hfound => by
      simp only [World.putState, Dict.get_set] at hfound
      split at hfound
      · exact Option.some.inj hfound ▸ hviewers hguarded
      · exact h.viewers hguarded channel found hfound }

theorem Inv.dropState (h : S.Inv s) (channelUuid : Text) : S.Inv (s.dropState channelUuid) :=
  { h with
    keys := Dict.nodup_erase h.keys _
    tracked := fun channel found hfound => by
      simp only [World.dropState, Dict.get_erase] at hfound
      split at hfound
      · contradiction
      · exact h.tracked channel found hfound
    viewers := fun hguarded channel found hfound => by
      simp only [World.dropState, Dict.get_erase] at hfound
      split at hfound
      · contradiction
      · exact h.viewers hguarded channel found hfound }

theorem Inv.dropLock (h : S.Inv s) (name : LockName) : S.Inv (s.dropLock name) :=
  { h with
    lockSerial := fun name' token htoken => by
      simp only [World.dropLock, update] at htoken
      split at htoken
      · contradiction
      · exact h.lockSerial name' token htoken }

theorem Inv.lockTried (h : S.Inv s) : S.Inv { s with serial := s.serial + 1 } :=
  { h with
    lockSerial := fun name token htoken => Nat.lt_succ_of_lt (h.lockSerial name token htoken)
    holding := fun t name token htoken =>
      ⟨(h.holding t name token htoken).1, Nat.lt_succ_of_lt (h.holding t name token htoken).2⟩
    spawnedLock := fun e he token htoken =>
      ⟨(h.spawnedLock e he token htoken).1,
        Nat.lt_succ_of_lt (h.spawnedLock e he token htoken).2⟩ }

theorem Inv.lockTaken (h : S.Inv s) (t : Thread) (name : LockName) :
    S.Inv
      { s with serial := s.serial + 1, locks := update s.locks name (some ⟨t, s.serial⟩) } :=
  { h.lockTried with
    lockSerial := fun name' token htoken => by
      simp only [update] at htoken
      split at htoken
      · exact Option.some.inj htoken ▸ Nat.lt_succ_self _
      · exact Nat.lt_succ_of_lt (h.lockSerial name' token htoken) }

/-- A start that has spawned calls its registering write. -/
theorem Inv.addRegistering (h : S.Inv s) (hspawned : ∃ e ∈ s.spawned, e.thread = t) :
    S.Inv { s with registering := t :: s.registering } :=
  { h with
    registered := fun R hR => by
      obtain ⟨e, he, hp, hpath, hthread, hparams⟩ := h.registered R hR
      exact ⟨e, he, hp, hpath, List.mem_cons_of_mem _ hthread, hparams⟩
    registering := fun t' ht' => by
      rcases List.mem_cons.mp ht' with rfl | ht'
      · exact hspawned
      · exact h.registering t' ht' }

/-- The write registers its buffer. -/
theorem Inv.register (h : S.Inv s) {R : BufferState}
    (hR : ∃ e ∈ s.spawned, e.process = R.process ∧ e.path = channelDir R ∧
      e.thread ∈ s.registering ∧
        ∃ params, S.requests e.thread = .startBuffer params ∧ R.accessToken = some params.token) :
    S.Inv { s with registered := R :: s.registered } :=
  { h with
    tracked := fun channel found hfound => by
      obtain ⟨hchannel, hseen⟩ := h.tracked channel found hfound
      exact ⟨hchannel, hseen.mono fun R' hR' => List.mem_cons_of_mem _ hR'⟩
    registered := fun R' hR' => by
      rcases List.mem_cons.mp hR' with rfl | hR'
      · exact hR
      · exact h.registered R' hR'
    caches := fun worker channel entry hentry => by
      obtain ⟨R', hR', hown⟩ := h.caches worker channel entry hentry
      exact ⟨R', List.mem_cons_of_mem _ hR', hown⟩ }

/-- A process that has not been before comes up, for a thread that has spawned none. -/
theorem Inv.spawn (h : S.Inv s) (path : DirPath) {process : ProcessId}
    (hfirst : s.Unspawned t) (hborn : process ∉ s.born) :
    S.Inv
      { s with
        processes := update s.processes process.1 (some process.2)
        born := process :: s.born
        spawned :=
          { process, path, thread := t, lock := s.holding t (.channel path.2) } :: s.spawned } :=
  have hfresh : ∀ e ∈ s.spawned, e.process ≠ process := fun e he heq =>
    hborn (heq ▸ h.spawnedBorn e he)
  { h with
    running := fun p hp => by
      rcases World.running_of_come (s := s) rfl hp with rfl | hbefore
      · exact List.mem_cons_self
      · exact List.mem_cons_of_mem _ (h.running p hbefore)
    spawnedBorn := fun e he => by
      rcases List.mem_cons.mp he with rfl | he
      · exact List.mem_cons_self
      · exact List.mem_cons_of_mem _ (h.spawnedBorn e he)
    spawnedLock := fun e he token htoken => by
      rcases List.mem_cons.mp he with rfl | he
      · exact h.holding t _ token htoken
      · exact h.spawnedLock e he token htoken
    byThread := fun e he e' he' heq => by
      rcases List.mem_cons.mp he with rfl | he <;>
        rcases List.mem_cons.mp he' with rfl | he'
      · rfl
      · exact absurd heq.symm (hfirst e' he')
      · exact absurd heq (hfirst e he)
      · exact h.byThread e he e' he' heq
    byProcess := fun e he e' he' heq => by
      rcases List.mem_cons.mp he with rfl | he <;>
        rcases List.mem_cons.mp he' with rfl | he'
      · rfl
      · exact absurd heq.symm (hfresh e' he')
      · exact absurd heq (hfresh e he)
      · exact h.byProcess e he e' he' heq
    dirs := fun path' d hd p hp =>
      (h.dirs path' d hd p hp).mono fun e he => List.mem_cons_of_mem _ he
    registered := fun R hR => by
      obtain ⟨e, he, hrest⟩ := h.registered R hR
      exact ⟨e, List.mem_cons_of_mem _ he, hrest⟩
    registering := fun t' ht' => by
      obtain ⟨e, he, hthread⟩ := h.registering t' ht'
      exact ⟨e, List.mem_cons_of_mem _ he, hthread⟩ }

/-! ## what the others rely on -/

/-- The commands that take nothing from the thread itself that it relies on. -/
def mild : Cmd Thread → Bool
  | .setState _ _ .registration => false
  | .acquireLock _ | .releaseLock .. | .renewLock .. | .expireLock .. | .popen _ => false
  | _ => true

variable {t' : Thread}

/-- A state of the same buffer stored. -/
theorem Rely.putState {channelUuid : Text} {old new : BufferState}
    {instance' : Option ProcessId} (hold : s.states.get channelUuid = some old)
    (hsame : new.sameBufferInstance old = true) :
    S.Rely t' s ((s.harmState channelUuid instance').putState channelUuid new) where
  __ := Rely.refl t' s
  channel _ channel token _ _ found hfound := by
    simp only [World.putState, Dict.get_set] at hfound
    split at hfound
    · next heq => exact ⟨old, heq ▸ hold, Option.some.inj hfound ▸ hsame⟩
    · exact ⟨found, hfound, (BufferState.Continues.refl found).same⟩
  slot _ token _ _ channel hfound := by
    simp only [World.putState, Dict.get_set] at hfound
    refine ⟨?_, by simp [World.putState, World.harmState, World.harm, hold]⟩
    split at hfound
    · next heq => simp [heq, hold]
    · exact hfound

theorem Rely.harm {victims : List ProcessId} {instance' : Option ProcessId} :
    S.Rely t' s (s.harm victims instance') where
  __ := Rely.refl t' s

theorem Rely.dropState (channelUuid : Text) (instance' : Option ProcessId) :
    S.Rely t' s ((s.harmState channelUuid instance').dropState channelUuid) where
  __ := Rely.refl t' s
  channel _ channel token _ _ found hfound := by
    simp only [World.dropState, Dict.get_erase] at hfound
    split at hfound
    · contradiction
    · exact ⟨found, hfound, (BufferState.Continues.refl found).same⟩
  slot _ token _ _ channel hfound := by
    simp only [World.dropState, Dict.get_erase] at hfound
    split at hfound
    · contradiction
    · exact ⟨hfound, rfl⟩

/-- A state registered under the locks of its start. -/
theorem Rely.register {channelUuid : Text} {state : BufferState} (hne : t' ≠ t)
    (hinv : S.Inv s) (hregisters : S.Registers t s channelUuid state)
    (hunexpired : S.Orderly → s.Unexpired t channelUuid) :
    S.Rely t' s
      { (s.harmState channelUuid (some state.process)).putState channelUuid state with
        registering := t :: s.registering, registered := state :: s.registered } where
  __ := Rely.refl t' s
  channel horderly channel token htoken hstored found hfound := by
    simp only [World.putState, Dict.get_set] at hfound
    split at hfound
    · next heq =>
        subst heq
        obtain ⟨own, hholding, hown⟩ :=
          hregisters.locked horderly.toGuarded (hunexpired horderly) (.channel channel) (by simp)
        have : own = token := Option.some.inj (hown.symm.trans hstored)
        exact absurd (htoken.symm.trans (this ▸ (hinv.holding t _ own hholding).1)) hne
    · exact ⟨found, hfound, (BufferState.Continues.refl found).same⟩
  slot horderly token htoken hstored channel hfound := by
    obtain ⟨own, hholding, hown⟩ :=
      hregisters.locked horderly.toGuarded (hunexpired horderly) .slot (by simp)
    have : own = token := Option.some.inj (hown.symm.trans hstored)
    exact absurd (htoken.symm.trans (this ▸ (hinv.holding t _ own hholding).1)) hne
  registered R hR := List.mem_cons_of_mem _ hR
  registering := by simp [hne]

/-- A lock taken by another thread. -/
theorem Rely.lockTaken {name : LockName} (hne : t' ≠ t) (hfree : s.locks name = none) :
    S.Rely t' s
      { s with serial := s.serial + 1, locks := update s.locks name (some ⟨t, s.serial⟩) } where
  __ := Rely.refl t' s
  channel _ _ _ _ _ new hnew := ⟨new, hnew, (BufferState.Continues.refl new).same⟩
  slot _ _ _ _ _ hnew := ⟨hnew, rfl⟩
  locks name' token htoken hstored := by
    simp only [update] at hstored
    split at hstored
    · exact absurd (htoken.symm.trans (congrArg _ (Option.some.inj hstored).symm)) hne
    · exact hstored
  kept _ name' token _ hstored := by
    refine .inl ?_
    simp only [update]
    split
    · next heq => simp [heq, hfree] at hstored
    · exact hstored

/-- A lock gone that was not the thread's. -/
theorem Rely.dropLock {name : LockName}
    (h : S.Guarded → ∀ token, s.locks name = some token → token.thread ≠ t') :
    S.Rely t' s (s.dropLock name) where
  __ := Rely.refl t' s
  channel _ _ _ _ _ new hnew := ⟨new, hnew, (BufferState.Continues.refl new).same⟩
  slot _ _ _ _ _ hnew := ⟨hnew, rfl⟩
  locks name' token _ hstored := by
    simp only [World.dropLock, update] at hstored
    split at hstored
    · contradiction
    · exact hstored
  kept hguarded name' token htoken hstored := by
    refine .inl ?_
    simp only [World.dropLock, update]
    split
    · next heq => exact absurd htoken (h hguarded token (heq ▸ hstored))
    · exact hstored

/-- A directory whose owner, if it is running, stays. -/
theorem Rely.setDir {path : DirPath} {dir : Option Directory}
    (h : S.OwnersKept → ∀ p, s.ownerAt path = some p → s.running p = true →
      dir.bind (·.owner) = some p) : S.Rely t' s (s.setDir path dir) where
  __ := Rely.refl t' s
  owners hkept path' p _ howner hrunning := by
    rw [World.ownerAt_setDir]
    split
    · next heq => exact h hkept p (heq ▸ howner) hrunning
    · exact howner

theorem Rely.spawn {path : DirPath} {dir : Directory} {process : ProcessId}
    {lock : Option (LockToken Thread)} (hne : t' ≠ t) (hdir : s.dirs path = some dir)
    (hborn : process ∉ s.born) :
    S.Rely t' s
      ({ s with
          processes := update s.processes process.1 (some process.2)
          born := process :: s.born
          spawned := { process, path, thread := t, lock } :: s.spawned }.setDir path
        (some { dir with tenants := process :: dir.tenants })) where
  __ := Rely.refl t' s
  dead p hp hrunning :=
    (World.running_of_come (s := s) rfl hrunning).resolve_left fun heq => hborn (heq ▸ hp)
  born p hp := List.mem_cons_of_mem _ hp
  spawned e he := List.mem_cons_of_mem _ he
  own e he ht := by
    rcases List.mem_cons.mp he with rfl | he
    · exact absurd ht.symm hne
    · exact he
  owners _ path' p _ howner _ := by
    rw [World.ownerAt_setDir_self (by simp [World.ownerAt, hdir])]
    exact howner

/-! ## a step -/

variable [DecidableEq Thread]

theorem Inv.hold (h : S.Inv s) {t : Thread} {name : LockName} {token : Option (LockToken Thread)}
    (htoken : ∀ taken ∈ token, taken.thread = t ∧ taken.serial < s.serial) :
    S.Inv (s.hold t name token) :=
  { h with
    holding := fun t' name' held hheld => by
      rw [World.holding_hold] at hheld
      split at hheld
      · next heq => exact heq.1 ▸ htoken held hheld
      · exact h.holding t' name' held hheld }

theorem Rely.hold {name : LockName} {token : Option (LockToken Thread)} (hne : t' ≠ t) :
    S.Rely t' s (s.hold t name token) where
  __ := Rely.refl t' s
  holding := update_of_ne _ _ hne

/-- A token of another thread's renewed. -/
theorem Rely.renew {token : LockToken Thread} (hne : token.thread ≠ t') :
    S.Rely t' s { s with expired := s.expired.filter (· ≠ token) } where
  __ := Rely.refl t' s
  kept _ _ _ _ hstored := .inl hstored
  expired token' hexpired htoken' := by
    refine List.mem_filter.mpr ⟨hexpired, ?_⟩
    simp only [ne_eq, decide_not, Bool.not_eq_eq_eq_not, Bool.not_true, decide_eq_false_iff_not]
    rintro rfl
    exact hne htoken'

/-- **Step lemma**: a step as promised keeps the invariant. -/
theorem Inv.step (h : S.Inv s) (hpromise : S.Promise t s c) (heffect : World.Effect t s c s') :
    S.Inv s' := by
  cases heffect with
  | nothing => exact h
  | registering =>
      obtain ⟨own, hown, hthread, -⟩ := hpromise.spawned
      exact h.addRegistering ⟨own, hown, hthread⟩
  | @registered channelUuid state =>
      obtain ⟨e, he, hthread, hp, hpath, -⟩ := hpromise.spawned
      obtain ⟨params, hparams, htoken⟩ := hpromise.token
      have hmore := (h.addRegistering ⟨e, he, hthread⟩).register (R := state)
        ⟨e, he, hp, hpath, hthread ▸ List.mem_cons_self, params, hthread ▸ hparams, htoken⟩
      exact { (hmore.putState hpromise.ofChannel
        ⟨state, List.mem_cons_self, .refl state⟩ fun _ => hpromise.viewers) with }
  | @stored channelUuid state reason hreason =>
      have hstored : ¬ S.Guarded ∧ state.channelUuid = channelUuid ∧ s.Seen state := by
        cases reason with
        | registration => exact absurd rfl hreason
        | marker => exact hpromise
        | unguarded => exact hpromise
      obtain ⟨hunguarded, hchannel, hseen⟩ := hstored
      exact (h.harm _ _).putState hchannel hseen fun hguarded => absurd hguarded hunguarded
  | compared hfound =>
      have hnew := Changes.continues hpromise
      obtain ⟨hchannel, hseen⟩ := h.tracked _ _ hfound
      exact (h.harm _ _).putState (hnew.channelUuid.trans hchannel) (hseen.continues hnew)
        fun hguarded => Changes.nodup_viewers hpromise (h.viewers hguarded _ _ hfound)
  | comparedAndDeleted => exact (h.harm _ _).dropState _
  | deleted => exact (h.harm _ _).dropState _
  | scanned => exact { h with since := fun channel => Nat.le_succ_of_le (h.since channel) }
  | lockTried => exact h.lockTried
  | @lockTaken name => exact h.lockTaken t name
  | @lockAcquired name => exact (h.lockTaken t name).hold (by simp)
  | lockGivenUp => exact h.hold (by simp)
  | lockReleased => exact (h.hold (by simp)).dropLock _
  | lockRenewed => exact { h with }
  | lockDeleted => exact h.dropLock _
  | lockExtended => exact { h with }
  | movedAside => exact (h.harm _ _).setDir (by simp)
  | @made path =>
      refine h.setDir fun d hd p hp => ?_
      obtain rfl := Option.mem_some.mp hd
      cases hdir : s.dirs path with
      | none => simp [hdir] at hp
      | some dir =>
          simp only [hdir, Option.getD_some] at hp
          exact h.dirs path dir hdir p hp
  | @spawned path dir process hdir hpid hborn =>
      have hmore := h.spawn path hpromise hborn
      refine hmore.setDir fun d hd p hp => ?_
      obtain rfl := Option.mem_some.mp hd
      rcases hp with hp | hp | hp
      · exact hmore.dirs path dir hdir p (.inl hp)
      · exact hmore.dirs path dir hdir p (.inr (.inl hp))
      · rcases List.mem_cons.mp hp with rfl | hp
        · exact ⟨_, List.mem_cons_self, rfl, rfl⟩
        · exact hmore.dirs path dir hdir p (.inr (.inr hp))
  | signalled => exact h.harm _ _
  | @killed process instance' ticks hpid =>
      exact { h with
        running := fun p hp => h.running p (World.running_of_gone rfl hp) }
  | @ownerTmpWritten path process dir hdir =>
      refine h.setDir fun d hd p hp => ?_
      obtain rfl := Option.mem_some.mp hd
      rcases hp with hp | hp | hp
      · exact h.dirs path dir hdir p (.inl hp)
      · exact Option.some.inj hp ▸ hpromise
      · exact h.dirs path dir hdir p (.inr (.inr hp))
  | @ownerTmpUnlinked path dir hdir =>
      refine h.setDir fun d hd p hp => ?_
      obtain rfl := Option.mem_some.mp hd
      rcases hp with hp | hp | hp
      · exact h.dirs path dir hdir p (.inl hp)
      · contradiction
      · exact h.dirs path dir hdir p (.inr (.inr hp))
  | @ownerReplaced path process dir tmp hdir htmp =>
      refine h.setDir fun d hd p hp => ?_
      obtain rfl := Option.mem_some.mp hd
      rcases hp with hp | hp | hp
      · exact h.dirs path dir hdir p (.inr (.inl (htmp.trans hp)))
      · contradiction
      · exact h.dirs path dir hdir p (.inr (.inr hp))
  | idled => exact { h with }
  | @remembered worker channelUuid entry =>
      exact { h with
        caches := fun worker' channel found hfound => by
          simp only [update] at hfound
          split at hfound
          · rw [Dict.get_set] at hfound
            split at hfound
            · exact Option.some.inj hfound ▸ hpromise
            · next heq _ => exact h.caches worker channel found hfound
          · exact h.caches worker' channel found hfound }

/-- Where owner files are kept, no step takes one from a running process. -/
theorem owners_of_effect {choice : Choice} (hkept : S.OwnersKept)
    (hsupposed : S.supposed t s c choice) (heffect : World.Effect t s c s') {path : DirPath}
    {p : ProcessId} (howner : s.ownerAt path = some p) (hrunning : s.running p = true) :
    s'.ownerAt path = some p := by
  cases heffect with
  | movedAside =>
      rw [World.ownerAt_setDir]
      split
      · next heq =>
          have hstopped := hkept _ _ _ _ hsupposed p (heq ▸ howner)
          exact absurd (hstopped.symm.trans hrunning) Bool.false_ne_true
      · exact howner
  | @made path' =>
      rw [World.ownerAt_setDir_self, howner]
      cases hdir : s.dirs path' with
      | none => simp [World.ownerAt, hdir]
      | some dir => simp [World.ownerAt, hdir]
  | spawned hdir =>
      rw [World.ownerAt_setDir_self (by simp [World.ownerAt, hdir])]
      exact howner
  | ownerTmpWritten hdir =>
      rw [World.ownerAt_setDir_self (by simp [World.ownerAt, hdir]), howner]
  | ownerTmpUnlinked hdir =>
      rw [World.ownerAt_setDir_self (by simp [World.ownerAt, hdir]), howner]
  | @ownerReplaced path' process dir tmp hdir htmp =>
      rw [World.ownerAt_setDir]
      split
      · next heq =>
          subst heq
          obtain ⟨-, ⟨dir', hdir', htmp'⟩, honly⟩ := hkept _ _ _ _ hsupposed
          obtain rfl := Option.some.inj (hdir.symm.trans hdir')
          have hown := honly p howner hrunning
          exact htmp.symm.trans (htmp'.trans (congrArg some hown.symm))
      · exact howner
  | _ => exact howner

/-- **Step lemma**: a step as promised keeps what the others rely on, and if it is
a mild one what its own thread does. -/
theorem Rely.step {choice : Choice} (hinv : S.Inv s) (hpromise : S.Promise t s c)
    (hsupposed : S.supposed t s c choice) (heffect : World.Effect t s c s')
    (hwhose : t' ≠ t ∨ mild c = true) : S.Rely t' s s' := by
  have hother : mild c = false → t' ≠ t := fun hc => by
    rcases hwhose with hne | hmild
    · exact hne
    · simp [hc] at hmild
  have howners : S.OwnersKept → ∀ path p, s.ownerAt path = some p → s.running p = true →
      s'.ownerAt path = some p := fun hkept path p => owners_of_effect hkept hsupposed heffect
  cases heffect with
  | nothing => exact .refl t' s
  | registering =>
      have hne := hother rfl
      exact { Rely.refl t' s with registering := by simp [hne] }
  | registered =>
      exact .register (hother rfl) hinv hpromise fun horderly =>
        horderly.punctual t s _ _ _ hsupposed
  | @stored channelUuid state reason hreason =>
      have hunguarded : ¬ S.Guarded := by
        cases reason with
        | registration => exact absurd rfl hreason
        | marker => exact hpromise.1
        | unguarded => exact hpromise.1
      exact { Rely.refl t' s with
        channel := fun horderly => absurd horderly.toGuarded hunguarded
        slot := fun horderly => absurd horderly.toGuarded hunguarded }
  | compared hfound => exact .putState hfound (Changes.continues hpromise).same
  | comparedAndDeleted => exact .dropState _ _
  | deleted => exact .dropState _ _
  | scanned => exact { Rely.refl t' s with scans := Nat.le_succ _ }
  | lockTried => exact { Rely.refl t' s with }
  | lockTaken hfree => exact .lockTaken (hother rfl) hfree
  | lockAcquired hfree => exact (Rely.lockTaken (hother rfl) hfree).trans (.hold (hother rfl))
  | lockGivenUp => exact .hold (hother rfl)
  | lockReleased hstored =>
      refine (Rely.hold (hother rfl)).trans (.dropLock fun _ token htoken => ?_)
      obtain rfl := Option.some.inj (hstored.symm.trans htoken)
      exact fun hthread => hother rfl (hthread.symm.trans hpromise)
  | lockRenewed => exact .renew fun hthread => hother rfl (hthread.symm.trans hpromise)
  | lockDeleted => exact .dropLock fun hguarded => absurd hguarded hpromise
  | lockExtended => exact .renew fun hthread => hother rfl (hthread.symm.trans hpromise)
  | movedAside =>
      refine Rely.harm.trans (.setDir fun hkept p howner hrunning => ?_)
      simpa only [World.ownerAt_setDir, if_true] using howners hkept _ p howner hrunning
  | made =>
      refine .setDir fun hkept p howner hrunning => ?_
      simpa only [World.ownerAt_setDir, if_true] using howners hkept _ p howner hrunning
  | spawned hdir _ hborn => exact .spawn (hother rfl) hdir hborn
  | signalled => exact { Rely.refl t' s with }
  | killed =>
      exact { Rely.refl t' s with
        owners := fun _ _ _ _ howner _ => howner
        dead := fun p _ hrunning => World.running_of_gone rfl hrunning }
  | ownerTmpWritten | ownerTmpUnlinked | ownerReplaced =>
      refine .setDir fun hkept p howner hrunning => ?_
      simpa only [World.ownerAt_setDir, if_true] using howners hkept _ p howner hrunning
  | idled => exact { Rely.refl t' s with idled := fun e he => List.mem_cons_of_mem _ he }
  | remembered => exact { Rely.refl t' s with }

/-! ## what happens by itself -/

theorem Inv.env {e : Env} (h : S.Inv s) (henv : s.env e = some s') : S.Inv s' := by
  cases e with
  | tick elapsed => cases henv; exact { h with }
  | loseState channelUuid => cases henv; exact h.dropState channelUuid
  | expireLock name => cases henv; exact { h.dropLock name with }
  | exit pid =>
      cases henv
      exact { h with
        running := fun p hp => h.running p (World.running_of_gone rfl hp) }
  | foreign process =>
      simp only [World.env] at henv
      split at henv
      · next hfree =>
          cases henv
          exact { h with
            running := fun p hp => by
              rcases World.running_of_come (s := s) rfl hp with rfl | hbefore
              · exact List.mem_cons_self
              · exact List.mem_cons_of_mem _ (h.running p hbefore)
            spawnedBorn := fun e he => List.mem_cons_of_mem _ (h.spawnedBorn e he) }
      · contradiction
  | ffmpegWrites process path files =>
      simp only [World.env] at henv
      split at henv
      · obtain ⟨dir, hdir, rfl⟩ := Option.map_eq_some_iff.mp henv
        refine h.setDir fun d hd p hp => ?_
        obtain rfl := Option.mem_some.mp hd
        exact h.dirs path dir hdir p hp
      · contradiction
  | forgetManifest worker channelUuid =>
      cases henv
      exact { h with
        caches := fun worker' channel found hfound => by
          simp only [update] at hfound
          split at hfound
          · rw [Dict.get_erase] at hfound
            split at hfound
            · contradiction
            · exact h.caches worker channel found hfound
          · exact h.caches worker' channel found hfound }

theorem Rely.env {e : Env} (henv : s.env e = some s') : S.Rely t' s s' := by
  cases e with
  | tick elapsed => cases henv; exact { Rely.refl t' s with clock := by simp only; omega }
  | loseState channelUuid =>
      cases henv
      have hdropped : S.Rely t' s (s.dropState channelUuid) := Rely.dropState channelUuid none
      exact hdropped.trans { Rely.refl t' _ with }
  | expireLock name =>
      cases henv
      exact { Rely.refl t' s with
        channel := fun _ _ _ _ _ new hnew => ⟨new, hnew, (BufferState.Continues.refl new).same⟩
        slot := fun _ _ _ _ _ hnew => ⟨hnew, rfl⟩
        locks := fun name' token _ hstored => by
          simp only [update] at hstored
          split at hstored
          · contradiction
          · exact hstored
        kept := fun _ name' token _ hstored => by
          simp only [update]
          split
          · next heq => exact .inr (by simp [← heq, hstored])
          · exact .inl hstored
        expired := fun token hexpired _ => List.mem_append_right _ hexpired }
  | exit pid =>
      cases henv
      exact { Rely.refl t' s with
        owners := fun _ _ _ _ howner _ => howner
        dead := fun p _ hrunning => World.running_of_gone rfl hrunning }
  | foreign process =>
      simp only [World.env] at henv
      split at henv
      · next hfree =>
          cases henv
          exact { Rely.refl t' s with
            owners := fun _ _ _ _ howner _ => howner
            dead := fun p hp hrunning =>
              (World.running_of_come rfl hrunning).resolve_left fun heq => hfree.2 (heq ▸ hp)
            born := fun p hp => List.mem_cons_of_mem _ hp }
      · contradiction
  | ffmpegWrites process path files =>
      simp only [World.env] at henv
      split at henv
      · obtain ⟨dir, hdir, rfl⟩ := Option.map_eq_some_iff.mp henv
        exact .setDir fun _ p howner _ => by simpa [World.ownerAt, hdir] using howner
      · contradiction
  | forgetManifest worker channelUuid => cases henv; exact { Rely.refl t' s with }

/-! ## the states behind a step -/

omit [DecidableEq Thread] in
/-- The process a start registers is no other instance's. -/
theorem Registers.fresh {channelUuid : Text} {state R : BufferState} (hinv : S.Inv s)
    (h : S.Registers t s channelUuid state) (hR : R ∈ s.registered) :
    R.process ≠ state.process := by
  obtain ⟨e, he, hprocess, -, hregistering, -⟩ := hinv.registered R hR
  obtain ⟨e', he', hthread, hprocess', -⟩ := h.spawned
  intro hsame
  obtain rfl := hinv.byProcess e he e' he' (hprocess.trans (hsame.trans hprocess'.symm))
  exact h.first (hthread ▸ hregistering)

variable (S t s) in
/-- What a step as promised makes of the states, where every update is guarded. -/
inductive StatesAfter : Cmd Thread → Dict BufferState → Prop
  | same {cmd} : StatesAfter cmd s.states
  | registers {channelUuid state} (h : S.Registers t s channelUuid state) :
      StatesAfter (.setState channelUuid state .registration) (s.states.set channelUuid state)
  | changes {channelUuid old new instance' triesLeft}
      (hfound : s.states.get channelUuid = some old)
      (h : Changes s t (S.requests t) channelUuid old new instance') :
      StatesAfter (.casState channelUuid old new instance' triesLeft)
        (s.states.set channelUuid new)
  | removes {channelUuid old state triesLeft} (hfound : s.states.get channelUuid = some old)
      (hremoving : S.Removing t s state) (hchannel : channelUuid = state.channelUuid)
      (hsame : old.sameBufferInstance state = true) :
      StatesAfter (.cadState channelUuid old state.process triesLeft)
        (s.states.erase channelUuid)
  | deletes {channelUuid state token} (hremoving : S.Removing t s state)
      (hchannel : channelUuid = state.channelUuid)
      (htoken : s.holding t (.channel channelUuid) = some token)
      (hunder : S.Under s channelUuid token (some state)) :
      StatesAfter (.deleteState channelUuid state.process) (s.states.erase channelUuid)

theorem statesAfter_of_effect (hguarded : S.Guarded) (hpromise : S.Promise t s c)
    (heffect : World.Effect t s c s') : StatesAfter S t s c s'.states := by
  cases heffect with
  | registered => exact .registers hpromise
  | stored hreason =>
      next channelUuid state reason =>
        cases reason with
        | registration => exact absurd rfl hreason
        | marker => exact absurd hguarded hpromise.1
        | unguarded => exact absurd hguarded hpromise.1
  | compared hfound => exact .changes hfound hpromise
  | comparedAndDeleted hfound =>
      obtain ⟨state, hremoving, hchannel, rfl, hsame⟩ := hpromise
      exact .removes hfound hremoving hchannel hsame
  | deleted =>
      obtain ⟨state, token, hremoving, hchannel, rfl, htoken, hunder⟩ := hpromise hguarded
      exact .deletes hremoving hchannel htoken hunder
  | _ => exact .same

/-- Nothing that happens by itself stores a state. -/
theorem states_of_env {e : Env} (henv : s.env e = some s') :
    s'.states = s.states ∨ ∃ channelUuid, s'.states = s.states.erase channelUuid := by
  cases e with
  | loseState channelUuid => exact .inr ⟨channelUuid, Option.some.inj henv ▸ rfl⟩
  | tick elapsed => exact .inl (Option.some.inj henv ▸ rfl)
  | expireLock name => exact .inl (Option.some.inj henv ▸ rfl)
  | exit pid => exact .inl (Option.some.inj henv ▸ rfl)
  | foreign process =>
      simp only [World.env] at henv
      split at henv
      · exact .inl (Option.some.inj henv ▸ rfl)
      · contradiction
  | ffmpegWrites process path files =>
      simp only [World.env] at henv
      split at henv
      · obtain ⟨dir, -, rfl⟩ := Option.map_eq_some_iff.mp henv
        exact .inl rfl
      · contradiction
  | forgetManifest worker channelUuid => exact .inl (Option.some.inj henv ▸ rfl)

end Setting

end TimeshiftBuffer

end DispatcharrPvr
