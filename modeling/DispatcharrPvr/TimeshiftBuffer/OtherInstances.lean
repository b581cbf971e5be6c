import DispatcharrPvr.TimeshiftBuffer.OwnerFiles

/-!
# TimeshiftBuffer.OtherInstances

No operation that removes one buffer, or clears what is left of none, harms another, as
long as each acts in time: under a lock that is still its own, or where nothing of another
buffer has come in its way.  A buffer's state once gone does not come back.
-/

namespace DispatcharrPvr

namespace TimeshiftBuffer

open Interleaving Runs

variable {Thread : Type} [DecidableEq Thread]

/-! ## the steps that are supposed to happen -/

namespace World

/-- A thread that has taken the channel's lock has it still. -/
def KeepsLock (s : World Thread) (t : Thread) (channelUuid : Text) : Prop :=
  ∀ token ∈ s.holding t (.channel channelUuid), s.locks (.channel channelUuid) = some token

/-- Nothing of another buffer has come into the directory: if the channel's state is of a
buffer there it is the instance's own, and no start that has its lock still has spawned
anything there. -/
def FindsOwn (s : World Thread) (path : DirPath) (instance' : Option ProcessId) : Prop :=
  (∀ state ∈ s.states.get path.2, channelDir state = path → some state.process = instance') ∧
    ∀ e ∈ s.spawned, e.process ∈ s.tenants path → some e.process ≠ instance' →
      ∀ token ∈ e.lock, s.locks (.channel path.2) ≠ some token

end World

/-- No marker loses its last try, nor does a delete under the channel's lock; a start's
write of its buffer comes before either of its locks has expired, and no buffer before has
had its pid and `started_at`; a plain delete comes while the channel's lock is held. -/
def InTime (t : Thread) (s : World Thread) : Cmd Thread → Choice → Prop
  | .setState channelUuid state .registration, _ =>
      s.Unexpired t channelUuid ∧ ∀ R ∈ s.registered, R.sameBufferInstance state = false
  | .casState channelUuid expected _ (some _) 0, _ => s.states.get channelUuid = some expected
  | .cadState channelUuid expected _ 0, _ =>
      (s.holding t (.channel channelUuid)).isSome → s.states.get channelUuid = some expected
  | .deleteState channelUuid _, _ => s.KeepsLock t channelUuid
  | _, _ => True

/-- A directory is moved aside, and what an owner file names is stopped, while the channel's
lock is held; a directory moved aside under no lock has nothing of another buffer; and a
pid that is signalled is still the process's. -/
def FindsNoOther (t : Thread) (s : World Thread) : Cmd Thread → Choice → Prop
  | .moveAside path instance', _ =>
      s.KeepsLock t path.2 ∧ (s.holding t (.channel path.2) = none → s.FindsOwn path instance')
  | .killpg process instance' _, _ =>
      (∀ ticks ∈ s.processes process.1, ticks = process.2) ∧
        (instance' = none → ∀ e ∈ s.spawned, e.process = process → s.KeepsLock t e.path.2)
  | _, _ => True

/-- Redis runs scripts, and the steps are in time and find no other buffer. -/
def timelySetting (py : Python) (maxConcurrent : Nat) (requests : Thread → Op) :
    Setting Thread where
  py := py
  maxConcurrent := maxConcurrent
  requests := requests
  scripts := true
  supposed t s c choice := InTime t s c choice ∧ FindsNoOther t s c choice

namespace Setting

variable {S : Setting Thread} {s s' : World Thread} {t : Thread} {cmd : Cmd Thread}

omit [DecidableEq Thread] in
theorem orderly_of_inTime (hscripts : S.scripts = true)
    (hsupposed : ∀ t s c choice, S.supposed t s c choice → InTime t s c choice) : S.Orderly where
  scripts := hscripts
  lastCas _ _ _ _ _ _ _ h := hsupposed _ _ _ _ h
  lastCad _ _ _ _ _ _ h := hsupposed _ _ _ _ h
  punctual _ _ _ _ _ h := (hsupposed _ _ _ _ h).1

/-! ## one instance and another -/

/-- Those that were registered differ in their pid or `started_at`. -/
def AllDistinct (s : World Thread) : Prop :=
  ∀ R ∈ s.registered, ∀ R' ∈ s.registered, R.sameBufferInstance R' = true →
    R.process = R'.process

omit [DecidableEq Thread] in
/-- The same instance has the same process. -/
theorem AllDistinct.process_eq (h : AllDistinct s) {a b : BufferState} (ha : s.Seen a)
    (hb : s.Seen b) (hsame : a.sameBufferInstance b = true) : a.process = b.process := by
  obtain ⟨R, hR, hcontinues⟩ := ha
  obtain ⟨R', hR', hcontinues'⟩ := hb
  have hregistered : R.sameBufferInstance R' = true := by
    have hfirst := BufferState.same_symm hcontinues.same
    exact BufferState.same_trans hfirst (BufferState.same_trans hsame hcontinues'.same)
  calc a.process = R.process := hcontinues.process
    _ = R'.process := h R hR R' hR' hregistered
    _ = b.process := hcontinues'.process.symm

/-- A start that is in time registers one more. -/
theorem AllDistinct.of_effect {choice : Choice} (h : AllDistinct s)
    (hintime : InTime t s cmd choice) (heffect : World.Effect t s cmd s') : AllDistinct s' := by
  cases heffect with
  | registered =>
      intro R hR R' hR' hsame
      rcases List.mem_cons.mp hR with rfl | hbefore <;>
        rcases List.mem_cons.mp hR' with rfl | hbefore'
      · rfl
      · have hother := hintime.2 R' hbefore'
        exact absurd (hother.symm.trans (BufferState.same_symm hsame)) Bool.false_ne_true
      · have hother := hintime.2 R hbefore
        exact absurd (hother.symm.trans hsame) Bool.false_ne_true
      · exact h R hbefore R' hbefore' hsame
  | _ => exact h

/-- What happens by itself registers and harms nobody. -/
theorem registered_of_env {e : Env} (henv : s.env e = some s') :
    s'.registered = s.registered ∧ s'.harmed = s.harmed := by
  cases e with
  | foreign process =>
      simp only [World.env] at henv
      split at henv
      · exact Option.some.inj henv ▸ ⟨rfl, rfl⟩
      · contradiction
  | ffmpegWrites process path files =>
      simp only [World.env] at henv
      split at henv
      · obtain ⟨dir, -, rfl⟩ := Option.map_eq_some_iff.mp henv
        exact ⟨rfl, rfl⟩
      · contradiction
  | _ => exact Option.some.inj henv ▸ ⟨rfl, rfl⟩

theorem AllDistinct.env {e : Env} (h : AllDistinct s) (henv : s.env e = some s') :
    AllDistinct s' := by
  obtain ⟨hregistered, -⟩ := registered_of_env henv
  exact fun R hR R' hR' => h R (hregistered ▸ hR) R' (hregistered ▸ hR')

omit [DecidableEq Thread] in
/-- A buffer's directory is where its process was spawned. -/
theorem Inv.channelDir_eq (h : S.Inv s) {state : BufferState} (hseen : s.Seen state)
    {path : DirPath} (hspawned : s.SpawnedAt state.process path) : channelDir state = path := by
  obtain ⟨R, hR, hcontinues⟩ := hseen
  obtain ⟨e, he, hprocess, hpath, -⟩ := h.registered R hR
  obtain ⟨e', he', hprocess', rfl⟩ := hspawned
  obtain rfl := h.byProcess e he e' he' (hprocess.trans (hcontinues.process.symm.trans hprocess'.symm))
  rw [hpath, channelDir, channelDir, hcontinues.storagePath, hcontinues.channelUuid]

omit [DecidableEq Thread] in
/-- An instance is gone that was registered and has no state any more. -/
theorem Inv.gone_iff (h : S.Inv s) {p : ProcessId} : s.gone p = true ↔
    (∃ R ∈ s.registered, R.process = p) ∧
      ∀ channelUuid state, s.states.get channelUuid = some state → state.process ≠ p := by
  simp only [World.gone, Bool.and_eq_true, List.any_eq_true, decide_eq_true_eq,
    Bool.not_eq_true', List.any_eq_false]
  refine and_congr_right fun _ => ⟨fun hall channelUuid state hstate => ?_, fun hall e he => ?_⟩
  · exact hall _ (Dict.mem_of_get hstate)
  · exact hall e.1 e.2 (Dict.get_of_mem h.keys he)

omit [DecidableEq Thread] in
/-- One that is not gone has its channel's state. -/
theorem Inv.exists_state (h : S.Inv s) {R : BufferState} (hR : R ∈ s.registered)
    (hgone : s.gone R.process = false) :
    ∃ channelUuid state, s.states.get channelUuid = some state ∧ state.process = R.process := by
  by_contra hnone
  have hall : s.gone R.process = true := h.gone_iff.mpr ⟨⟨R, hR, rfl⟩, fun channelUuid state hstate
    hprocess => hnone ⟨channelUuid, state, hstate, hprocess⟩⟩
  exact Bool.false_ne_true (hgone.symm.trans hall)

/-! ## what is gone stays gone -/

/-- No step as promised brings back a state that is gone. -/
theorem gone_of_effect (hguarded : S.Guarded) (hinv : S.Inv s) (hinv' : S.Inv s')
    (hpromise : S.Promise t s cmd) (heffect : World.Effect t s cmd s') {p : ProcessId}
    (hgone : s.gone p = true) : s'.gone p = true := by
  obtain ⟨⟨R, hR, hprocess⟩, hnone⟩ := hinv.gone_iff.mp hgone
  refine hinv'.gone_iff.mpr ⟨⟨R, heffect.registered_mono R hR, hprocess⟩,
    fun channelUuid state hstate => ?_⟩
  have hafter := statesAfter_of_effect hguarded hpromise heffect
  generalize s'.states = states at hafter hstate
  cases hafter with
  | same => exact hnone channelUuid state hstate
  | registers hregisters =>
      rw [Dict.get_set] at hstate
      split at hstate
      · obtain rfl := Option.some.inj hstate
        exact fun heq => hregisters.fresh hinv hR (hprocess.trans heq.symm)
      · exact hnone channelUuid state hstate
  | changes hfound hchanges =>
      rw [Dict.get_set] at hstate
      split at hstate
      · obtain rfl := Option.some.inj hstate
        rw [hchanges.continues.process]
        exact hnone _ _ hfound
      · exact hnone channelUuid state hstate
  | removes | deletes =>
      rw [Dict.get_erase] at hstate
      split at hstate
      · contradiction
      · exact hnone channelUuid state hstate

/-- Nor does what happens by itself. -/
theorem gone_of_env {e : Env} (hinv : S.Inv s) (henv : s.env e = some s') {p : ProcessId}
    (hgone : s.gone p = true) : s'.gone p = true := by
  obtain ⟨⟨R, hR, hprocess⟩, hnone⟩ := hinv.gone_iff.mp hgone
  -- the thread that registered it relies on as much as is needed here
  obtain ⟨spawned, -⟩ := hinv.registered R hR
  have hrely : S.Rely spawned.thread s s' := Rely.env henv
  refine (hinv.env henv).gone_iff.mpr ⟨⟨R, hrely.registered R hR, hprocess⟩,
    fun channelUuid state hstate => ?_⟩
  rcases states_of_env henv with hsame | ⟨channel, herase⟩
  · exact hnone channelUuid state (hsame ▸ hstate)
  · rw [herase, Dict.get_erase] at hstate
    split at hstate
    · contradiction
    · exact hnone channelUuid state hstate

/-! ## whom no start registers any more -/

/-- A process that no start has registered, and whose start has lost its lock. -/
structure Abandoned (s : World Thread) (p : ProcessId) : Prop where
  born : p ∈ s.born
  unregistered : ∀ R ∈ s.registered, R.process ≠ p
  unlocked : ∀ e ∈ s.spawned, e.process = p → ∀ token ∈ e.lock,
    s.locks (.channel e.path.2) ≠ some token

omit [DecidableEq Thread] in
/-- A lock that is taken has another token. -/
theorem Inv.token_ne (h : S.Inv s) {e : Spawned Thread} (he : e ∈ s.spawned)
    {token : LockToken Thread} (htoken : token ∈ e.lock) (name : LockName)
    (hlost : s.locks name ≠ some token) (name' : LockName) :
    update s.locks name' (some ⟨t, s.serial⟩) name ≠ some token := by
  simp only [update]
  split
  · intro heq
    have hserial := (h.spawnedLock e he token htoken).2
    rw [← Option.some.inj heq] at hserial
    exact lt_irrefl _ hserial
  · exact hlost

omit [DecidableEq Thread] in
/-- And one that is given up has none. -/
theorem ne_of_dropLock {token : LockToken Thread} {name name' : LockName}
    (hlost : s.locks name ≠ some token) : (s.dropLock name').locks name ≠ some token := by
  simp only [World.dropLock, update]
  split
  · exact fun heq => by cases heq
  · exact hlost

/-- No step in time registers it. -/
theorem Abandoned.of_effect {choice : Choice} {p : ProcessId} (h : Abandoned s p)
    (hguarded : S.Guarded) (hinv : S.Inv s) (hpromise : S.Promise t s cmd)
    (hintime : InTime t s cmd choice) (heffect : World.Effect t s cmd s') : Abandoned s' p := by
  cases heffect with
  | @registered channelUuid state =>
      refine ⟨h.born, fun R hR => ?_, h.unlocked⟩
      rcases List.mem_cons.mp hR with rfl | hR
      · intro hprocess
        obtain ⟨e, he, -, hown, hpath, token, htoken, hholding⟩ := hpromise.spawned
        obtain ⟨token', hholding', hstored⟩ :=
          hpromise.locked hguarded hintime.1 (.channel channelUuid) (by simp)
        obtain rfl := Option.some.inj (hholding.symm.trans hholding')
        have hchannel : e.path.2 = channelUuid := by
          rw [hpath, channelDir, hpromise.ofChannel]
        exact h.unlocked e he (hown.trans hprocess) token htoken (hchannel ▸ hstored)
      · exact h.unregistered R hR
  | lockTaken | lockAcquired =>
      exact ⟨h.born, h.unregistered, fun e he hp token htoken =>
        hinv.token_ne he htoken _ (h.unlocked e he hp token htoken) _⟩
  | lockReleased | lockDeleted =>
      exact ⟨h.born, h.unregistered, fun e he hp token htoken =>
        ne_of_dropLock (h.unlocked e he hp token htoken)⟩
  | @spawned path dir process hdir hpid hborn =>
      refine ⟨List.mem_cons_of_mem _ h.born, h.unregistered, fun e he hp token htoken => ?_⟩
      rcases List.mem_cons.mp he with rfl | he
      · have hnew : process = p := hp
        exact absurd (hnew ▸ h.born) hborn
      · exact h.unlocked e he hp token htoken
  | _ => exact ⟨h.born, h.unregistered, h.unlocked⟩

theorem Abandoned.env {e : Env} {p : ProcessId} (h : Abandoned s p)
    (henv : s.env e = some s') : Abandoned s' p := by
  cases e with
  | tick elapsed => cases henv; exact ⟨h.born, h.unregistered, h.unlocked⟩
  | loseState channelUuid => cases henv; exact ⟨h.born, h.unregistered, h.unlocked⟩
  | expireLock name =>
      cases henv
      exact ⟨h.born, h.unregistered, fun e he hp token htoken =>
        ne_of_dropLock (h.unlocked e he hp token htoken)⟩
  | exit pid => cases henv; exact ⟨h.born, h.unregistered, h.unlocked⟩
  | foreign process =>
      simp only [World.env] at henv
      split at henv
      · cases henv
        exact ⟨List.mem_cons_of_mem _ h.born, h.unregistered, h.unlocked⟩
      · contradiction
  | ffmpegWrites process path files =>
      simp only [World.env] at henv
      split at henv
      · obtain ⟨dir, -, rfl⟩ := Option.map_eq_some_iff.mp henv
        exact ⟨h.born, h.unregistered, h.unlocked⟩
      · contradiction
  | forgetManifest worker channelUuid => cases henv; exact ⟨h.born, h.unregistered, h.unlocked⟩

/-! ## the victims of a step -/

omit [DecidableEq Thread] in
/-- A marker is written by who removes the instance. -/
theorem Changes.removing {channelUuid : Text} {old new : BufferState} {q : ProcessId}
    (h : Changes s t (S.requests t) channelUuid old new (some q)) :
    ∃ A, S.Removing t s A ∧ q = A.process ∧ old.sameBufferInstance A = true := by
  generalize hop : S.requests t = op at h
  cases h with
  | marks hremoves hseen hsame => exact ⟨_, ⟨⟨_, hop ▸ hremoves⟩, hseen⟩, rfl, hsame⟩

omit [DecidableEq Thread] in
theorem mem_harm {victims : List ProcessId} {instance' : Option ProcessId} {p : ProcessId} :
    p ∈ (s.harm victims instance').harmed ↔
      (p ∈ victims ∧ some p ≠ instance' ∧ s.gone p = false) ∨ p ∈ s.harmed := by
  simp [World.harm]

omit [DecidableEq Thread] in
/-- An instance's own state is no victim. -/
theorem harmed_harmState {channelUuid : Text} {q p : ProcessId}
    (hown : ∀ state, s.states.get channelUuid = some state → state.process = q)
    (h : p ∈ (s.harmState channelUuid (some q)).harmed) : p ∈ s.harmed := by
  rcases mem_harm.mp h with ⟨hvictim, hother, -⟩ | hbefore
  · obtain ⟨state, hstate, hprocess⟩ : ∃ state, s.states.get channelUuid = some state ∧
        state.process = p := by simpa using hvictim
    exact absurd (congrArg some (hprocess.symm.trans (hown state hstate))) hother
  · exact hbefore

omit [DecidableEq Thread] in
/-- A victim in a directory is abandoned where the channel's state is not its own, and
no start that has its lock has spawned it. -/
theorem Inv.abandoned (h : S.Inv s) {path : DirPath} {p : ProcessId} (hat : s.SpawnedAt p path)
    (hgone : s.gone p = false)
    (hother : ∀ state, s.states.get path.2 = some state → channelDir state = path →
      state.process ≠ p)
    (hunlocked : ∀ e ∈ s.spawned, e.process = p → ∀ token ∈ e.lock,
      s.locks (.channel path.2) ≠ some token) : Abandoned s p := by
  obtain ⟨e, he, hprocess, hpath⟩ := hat
  refine ⟨hprocess ▸ h.spawnedBorn e he, fun R hR hp => ?_, fun e' he' hp token htoken => ?_⟩
  · obtain ⟨channelUuid, state, hstate, hof⟩ := h.exists_state hR (hp ▸ hgone)
    obtain ⟨hchannel, hseen⟩ := h.tracked _ _ hstate
    have hdir := h.channelDir_eq hseen ⟨e, he, hprocess.trans (hp.symm.trans hof.symm), hpath⟩
    have hof' : state.channelUuid = path.2 := congrArg Prod.snd hdir
    exact hother state (hof' ▸ hchannel ▸ hstate) hdir (hof.trans hp)
  · obtain rfl := h.byProcess e he e' he' (hprocess.trans hp.symm)
    exact hpath ▸ hunlocked e he hp token htoken

omit [DecidableEq Thread] in
/-- Under the channel's lock nothing else of a directory is anybody's. -/
theorem Inv.abandoned_under_lock (h : S.Inv s) (horderly : S.Orderly) (hdistinct : AllDistinct s)
    {path : DirPath} {token : LockToken Thread} {only : Option BufferState} {p : ProcessId}
    (hholding : s.holding t (.channel path.2) = some token) (hlock : s.KeepsLock t path.2)
    (hunder : S.Under s path.2 token only) (hunspawned : s.Unspawned t)
    (hat : s.SpawnedAt p path) (hgone : s.gone p = false)
    (honly : ∀ A ∈ only, s.Seen A ∧ A.process ≠ p) : Abandoned s p := by
  have hstored := hlock token hholding
  refine h.abandoned hat hgone (fun state hstate _ => ?_) fun e he _ token' htoken' hstored' => ?_
  · obtain ⟨A, hA, hsame⟩ := hunder horderly hstored state hstate
    obtain ⟨hseen, hne⟩ := honly A hA
    exact hdistinct.process_eq (h.tracked _ _ hstate).2 hseen hsame ▸ hne
  · obtain rfl := Option.some.inj (hstored.symm.trans hstored')
    have hthread := (h.spawnedLock e he token htoken').1
    exact hunspawned e he (hthread.symm.trans (h.holding _ _ _ hholding).1)

omit [DecidableEq Thread] in
/-- A signal harms nobody that is not abandoned. -/
theorem Inv.harmed_of_kill (h : S.Inv s) (horderly : S.Orderly) (hdistinct : AllDistinct s)
    {process p : ProcessId} {instance' : Option ProcessId} {kill : Bool} {ticks : Nat}
    {choice : Choice} (hpromise : S.Promise t s (.killpg process instance' kill))
    (hpid : s.processes process.1 = some ticks)
    (hfinds : FindsNoOther t s (.killpg process instance' kill) choice)
    (hp : p ∈ (s.harm [(process.1, ticks)] instance').harmed) :
    p ∈ s.harmed ∨ Abandoned s p := by
  have hfound : (process.1, ticks) = process := Prod.ext rfl (hfinds.1 ticks hpid)
  rcases mem_harm.mp hp with ⟨hvictim, hother, hgone⟩ | hbefore
  · obtain rfl : p = process := (List.mem_singleton.mp hvictim).trans hfound
    cases instance' with
    | none =>
        obtain ⟨path, token, hholding, hunder, hunspawned, hat⟩ := hpromise
        obtain ⟨e, he, hof, rfl⟩ := hat
        exact .inr (h.abandoned_under_lock horderly hdistinct hholding (hfinds.2 rfl e he hof)
          hunder hunspawned ⟨e, he, hof, rfl⟩ hgone (by simp))
    | some q => exact absurd (congrArg some hpromise.1.symm) hother
  · exact .inl hbefore

/-- **Step lemma**: whom a step in time harms, if anyone, is abandoned. -/
theorem harmed_of_effect {choice : Choice} (horderly : S.Orderly) (hinv : S.Inv s)
    (hdistinct : AllDistinct s) (hpromise : S.Promise t s cmd)
    (hintime : InTime t s cmd choice) (hfinds : FindsNoOther t s cmd choice)
    (heffect : World.Effect t s cmd s') {p : ProcessId} (hp : p ∈ s'.harmed) :
    p ∈ s.harmed ∨ Abandoned s p := by
  have hprocess : ∀ {channelUuid a b}, s.states.get channelUuid = some a → s.Seen b →
      a.sameBufferInstance b = true → a.process = b.process := fun ha hb hsame =>
    hdistinct.process_eq (hinv.tracked _ _ ha).2 hb hsame
  cases heffect with
  | @registered channelUuid state =>
      obtain ⟨hnone, -⟩ := hpromise.alone horderly hintime.1
      exact .inl (harmed_harmState (fun found hfound => by simp [hnone] at hfound) hp)
  | @stored channelUuid state reason hreason =>
      cases reason with
      | registration => exact absurd rfl hreason
      | marker => exact absurd horderly.toGuarded hpromise.1
      | unguarded => exact absurd horderly.toGuarded hpromise.1
  | @compared channelUuid expected new instance' triesLeft hfound =>
      cases instance' with
      | none => exact .inl hp
      | some q =>
          obtain ⟨A, ⟨-, hseen⟩, rfl, hsame⟩ := Changes.removing (S := S) hpromise
          exact .inl (harmed_harmState (fun state hstate => hprocess hstate hseen
            (Option.some.inj (hfound.symm.trans hstate) ▸ hsame)) hp)
  | @comparedAndDeleted channelUuid expected instance' triesLeft hfound =>
      obtain ⟨A, ⟨-, hseen⟩, -, rfl, hsame⟩ := hpromise
      exact .inl (harmed_harmState (fun state hstate => hprocess hstate hseen
        (Option.some.inj (hfound.symm.trans hstate) ▸ hsame)) hp)
  | @deleted channelUuid instance' =>
      obtain ⟨A, token, ⟨-, hseen⟩, -, rfl, hholding, hunder⟩ := hpromise horderly.toGuarded
      refine .inl (harmed_harmState (fun state hstate => ?_) hp)
      obtain ⟨A', hA', hsame⟩ := hunder horderly (hintime token hholding) state hstate
      obtain rfl := Option.mem_some.mp hA'
      exact hprocess hstate hseen hsame
  | @movedAside path instance' dir hdir =>
      rcases mem_harm.mp hp with ⟨htenant, hother, hgone⟩ | hbefore
      · have hat := hinv.dirs path dir hdir p (.inr (.inr htenant))
        have htenants : p ∈ s.tenants path := by simpa [World.tenants, hdir] using htenant
        rcases hpromise with ⟨token, only, hholding, hunder, rfl, hunspawned, honly⟩ |
          ⟨hfree, -⟩
        · refine .inr (hinv.abandoned_under_lock horderly hdistinct hholding hfinds.1 hunder
            hunspawned hat hgone fun A hA => ⟨(honly A hA).2, ?_⟩)
          rintro rfl
          exact hother (by simp [Option.mem_def.mp hA])
        · obtain ⟨hstate, hspawned⟩ := hfinds.2 hfree
          refine .inr (hinv.abandoned hat hgone (fun state hget hin heq => ?_)
            fun e he heq => ?_)
          · exact hother (heq ▸ hstate state hget hin)
          · exact hspawned e he (heq ▸ htenants) (heq ▸ hother)
      · exact .inl hbefore
  | @signalled process instance' kill ticks hpid =>
      exact hinv.harmed_of_kill horderly hdistinct hpromise hpid hfinds hp
  | @killed process instance' ticks hpid =>
      exact hinv.harmed_of_kill horderly hdistinct hpromise hpid hfinds hp
  | _ => exact .inl hp

/-- What holds throughout: those registered differ, and those harmed are abandoned. -/
structure Unharmed (s : World Thread) : Prop where
  distinct : AllDistinct s
  harmed : ∀ p ∈ s.harmed, Abandoned s p

theorem Unharmed.of_effect {choice : Choice} (h : Unharmed s) (horderly : S.Orderly)
    (hinv : S.Inv s) (hpromise : S.Promise t s cmd) (hintime : InTime t s cmd choice)
    (hfinds : FindsNoOther t s cmd choice) (heffect : World.Effect t s cmd s') :
    Unharmed s' := by
  refine ⟨h.distinct.of_effect hintime heffect, fun p hp => ?_⟩
  have habandoned : Abandoned s p := by
    rcases harmed_of_effect horderly hinv h.distinct hpromise hintime hfinds heffect hp with
      hbefore | hnow
    · exact h.harmed p hbefore
    · exact hnow
  exact habandoned.of_effect horderly.toGuarded hinv hpromise hintime heffect

theorem Unharmed.env {e : Env} (h : Unharmed s) (henv : s.env e = some s') : Unharmed s' := by
  obtain ⟨-, hharmed⟩ := registered_of_env henv
  exact ⟨h.distinct.env henv, fun p hp => (h.harmed p (hharmed ▸ hp)).env henv⟩

end Setting

/-! ## every run -/

section Runs

/-- **No other instance is harmed** in every run whose steps are in time and find no
other buffer: no start has registered or registers whom an operation has signalled, moved
aside, overwritten or deleted for another's sake; and a buffer whose state is gone has
none ever after. -/
theorem no_other_instance_harmed (py : Python) (maxConcurrent : Nat) (requests : Thread → Op)
    {w : World Thread} {es es' : List (Event Thread Choice Env)}
    {c c' : Setting.PluginConfig Thread} (hw : Setting.Starts true w)
    (hintime : Meets (plugin py maxConcurrent requests).step (Taken InTime)
      { world := w } (es ++ es'))
    (hfinds : Meets (plugin py maxConcurrent requests).step (Taken FindsNoOther)
      { world := w } (es ++ es'))
    (hrun : run (plugin py maxConcurrent requests).step { world := w } es = some c)
    (hrun' : run (plugin py maxConcurrent requests).step c es' = some c') :
    (∀ p ∈ c'.world.harmed, ∀ R ∈ c'.world.registered, R.process ≠ p) ∧
      ∀ p, c.world.gone p = true → c'.world.gone p = true := by
  have hsteps := (hintime.and hfinds).mono fun c e h => h.1.and h.2
  obtain ⟨hbefore, hafter⟩ := hsteps.append hrun
  have horderly : (timelySetting py maxConcurrent requests).Orderly :=
    Setting.orderly_of_inTime rfl fun _ _ _ _ h => h.1
  have hnone : Setting.Unharmed w :=
    ⟨fun R hR => by simp [hw.registered] at hR, fun p hp => by simp [hw.harmed] at hp⟩
  have hunharmed := Setting.invariant_of_holds (J := Setting.Unharmed) (fun _ _ _ _ h => h)
    (fun hinv _ hpromise htaken heffect h =>
      h.of_effect horderly hinv hpromise htaken.1 htaken.2 heffect)
    (fun _ henv h => h.env henv)
    (Setting.holds_start (S := timelySetting py maxConcurrent requests) hw) hnone hsteps
    (run_append_eq_some_iff.mpr ⟨c, hrun, hrun'⟩)
  refine ⟨fun p hp => (hunharmed.2.harmed p hp).unregistered, fun p hgone => ?_⟩
  have hholds := Setting.holds_of_run (S := timelySetting py maxConcurrent requests) hw hbefore
    hrun
  exact (Setting.invariant_of_holds (J := fun s => s.gone p = true) (fun _ _ _ _ h => h)
    (fun hinv hinv' hpromise _ heffect h =>
      Setting.gone_of_effect horderly.toGuarded hinv hinv' hpromise heffect h)
    (fun hinv henv h => Setting.gone_of_env hinv henv h) hholds hgone hafter hrun').2

end Runs

/-! ## a teardown that is late -/

section Late

instance decidableKeepsLock (s : World Thread) (t : Thread) (channelUuid : Text) :
    Decidable (s.KeepsLock t channelUuid) :=
  inferInstanceAs (Decidable (∀ token ∈ s.holding t (.channel channelUuid),
    s.locks (.channel channelUuid) = some token))

instance decidableFindsOwn (s : World Thread) (path : DirPath) (instance' : Option ProcessId) :
    Decidable (s.FindsOwn path instance') :=
  inferInstanceAs (Decidable (
    (∀ state ∈ s.states.get path.2, channelDir state = path → some state.process = instance') ∧
      ∀ e ∈ s.spawned, e.process ∈ s.tenants path → some e.process ≠ instance' →
        ∀ token ∈ e.lock, s.locks (.channel path.2) ≠ some token))

instance decidableInTime (t : Thread) (s : World Thread) :
    (c : Cmd Thread) → (choice : Choice) → Decidable (InTime t s c choice)
  | .setState channelUuid state .registration, _ =>
      inferInstanceAs (Decidable (s.Unexpired t channelUuid ∧
        ∀ R ∈ s.registered, R.sameBufferInstance state = false))
  | .casState channelUuid expected _ (some _) 0, _ =>
      inferInstanceAs (Decidable (s.states.get channelUuid = some expected))
  | .cadState channelUuid expected _ 0, _ =>
      inferInstanceAs (Decidable ((s.holding t (.channel channelUuid)).isSome →
        s.states.get channelUuid = some expected))
  | .deleteState channelUuid _, _ => decidableKeepsLock s t channelUuid
  | .casState _ _ _ none _, _ | .casState _ _ _ (some _) (_ + 1), _ | .cadState _ _ _ (_ + 1), _
  | .setState _ _ .marker, _ | .setState _ _ .unguarded, _ | .query _, _ | .scan, _
  | .acquireLock _, _ | .releaseLock .., _ | .renewLock .., _ | .deleteLock .., _
  | .expireLock .., _ | .moveAside .., _ | .mkdir _, _ | .popen _, _ | .killpg .., _
  | .writeOwnerTmp .., _ | .unlinkOwnerTmp _, _ | .replaceOwner .., _ | .idle .., _
  | .rememberManifest .., _ | .answerManifest .., _ => .isTrue trivial

instance decidableFindsNoOther (t : Thread) (s : World Thread) :
    (c : Cmd Thread) → (choice : Choice) → Decidable (FindsNoOther t s c choice)
  | .moveAside path instance', _ =>
      inferInstanceAs (Decidable (s.KeepsLock t path.2 ∧
        (s.holding t (.channel path.2) = none → s.FindsOwn path instance')))
  | .killpg process instance' _, _ =>
      inferInstanceAs (Decidable ((∀ ticks ∈ s.processes process.1, ticks = process.2) ∧
        (instance' = none → ∀ e ∈ s.spawned, e.process = process → s.KeepsLock t e.path.2)))
  | .query _, _ | .setState .., _ | .casState .., _ | .cadState .., _ | .deleteState .., _
  | .scan, _ | .acquireLock _, _ | .releaseLock .., _ | .renewLock .., _ | .deleteLock .., _
  | .expireLock .., _ | .mkdir _, _ | .popen _, _ | .writeOwnerTmp .., _ | .unlinkOwnerTmp _, _
  | .replaceOwner .., _ | .idle .., _ | .rememberManifest .., _ | .answerManifest .., _ =>
      .isTrue trivial

/-- A registered instance has been harmed. -/
def harms (c : Setting.PluginConfig Nat) : Bool :=
  c.world.harmed.any fun p => c.world.registered.any fun R => R.process == p

/-- The rename of a late teardown takes the directory of the buffer that has replaced its
own. -/
theorem lateRename_harms :
    ¬ ∀ (py : Python) (maxConcurrent : Nat) (requests : Nat → Op) (w : World Nat)
      (es : List (Event Nat Choice Env)) (c : Setting.PluginConfig Nat),
      Setting.Starts true w →
      run (plugin py maxConcurrent requests).step { world := w } es = some c →
      ∀ p ∈ c.world.harmed, ∀ R ∈ c.world.registered, R.process ≠ p := by
  intro hall
  have hharms : (run (plugin numberless 1 replaced).step { world := {} }
      (stopUnderway ++ replacement ++ goOn 1 1)).any harms = true := by
    decide +kernel
  obtain ⟨c, hrun, hharms⟩ := (Option.any_eq_true _ _).mp hharms
  simp only [harms, List.any_eq_true, beq_iff_eq] at hharms
  obtain ⟨p, hp, R, hR, hprocess⟩ := hharms
  exact hall numberless 1 replaced {} _ c Setting.starts_empty hrun p hp R hR hprocess

/-- The teardown comes to its end, and the next start registers its buffer. -/
def stopThenStart : List (Event Nat Choice Env) × List (Event Nat Choice Env) :=
  (stopUnderway ++ goOn 1 3,
    .begins 2 :: goOn 2 10 ++ .steps 2 { process := (3, 0) } :: goOn 2 11)

/-- Nobody is harmed, and the first buffer stays gone. -/
theorem no_other_instance_harmed_stopThenStart :
    ∃ c c', run (plugin numberless 1 replaced).step { world := {} } stopThenStart.1 = some c ∧
      run (plugin numberless 1 replaced).step c stopThenStart.2 = some c' ∧
      c'.world.registered.length = 2 ∧ c'.world.gone (2, 0) = true ∧
      ∀ p ∈ c'.world.harmed, ∀ R ∈ c'.world.registered, R.process ≠ p := by
  have hseen : ((run (plugin numberless 1 replaced).step { world := {} } stopThenStart.1).bind
      fun c => (run (plugin numberless 1 replaced).step c stopThenStart.2).map fun c' =>
        (c.world.gone (2, 0), c'.world.registered.length)) = some (true, 2) := by
    decide +kernel
  obtain ⟨c, hrun, hseen⟩ := Option.bind_eq_some_iff.mp hseen
  obtain ⟨c', hrun', hseen⟩ := Option.map_eq_some_iff.mp hseen
  simp only [Prod.mk.injEq] at hseen
  obtain ⟨hunharmed, hstays⟩ := no_other_instance_harmed numberless 1 replaced
    Setting.starts_empty (by decide +kernel) (by decide +kernel) hrun hrun'
  exact ⟨c, c', hrun, hrun', hseen.2, hstays _ hseen.1, hunharmed⟩

end Late

end TimeshiftBuffer

end DispatcharrPvr
