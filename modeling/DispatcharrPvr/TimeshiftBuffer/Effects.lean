import DispatcharrPvr.TimeshiftBuffer.Operations

/-!
# TimeshiftBuffer.Effects

What one step of a thread does to what is shared, said once for all commands;
whatever is shown of every step is shown by its cases.
-/

namespace DispatcharrPvr

namespace TimeshiftBuffer

namespace World

variable {Thread : Type} [DecidableEq Thread] {s s' : World Thread} {t : Thread}

section Redis

variable {choice : Choice} {α : Type} {effect : World Thread} {answer : α} {r : Except Failure α}

omit [DecidableEq Thread] in
/-- What a Redis call comes to. -/
theorem redis_eq_some (h : s.redis choice effect answer = some (s', r)) :
    (s' = effect ∧ r = .ok answer) ∨ ((s' = s ∨ s' = effect) ∧ r = .error .redis) := by
  simp only [redis] at h
  split at h
  · simp only [Option.some.injEq, Prod.mk.injEq] at h
    exact .inl ⟨h.1.symm, h.2.symm⟩
  · simp only [Option.some.injEq, Prod.mk.injEq] at h
    exact .inr ⟨.inl h.1.symm, h.2.symm⟩
  · simp only [Option.some.injEq, Prod.mk.injEq] at h
    exact .inr ⟨.inr h.1.symm, h.2.symm⟩

omit [DecidableEq Thread] in
/-- What a script comes to. -/
theorem script_eq_some (h : s.script choice effect answer = some (s', r)) :
    (s.scripts = true ∧ s' = effect ∧ r = .ok answer) ∨
      ((s' = s ∨ s' = effect) ∧ r = .error .redis) ∨
      (s.scripts = false ∧ s' = s ∧ r = .error .response) := by
  simp only [script] at h
  split at h
  · next hscripts =>
      rcases redis_eq_some h with ⟨hs, hr⟩ | hfailed
      · exact .inl ⟨hscripts, hs, hr⟩
      · exact .inr (.inl hfailed)
  · next hscripts =>
      simp only [Option.some.injEq, Prod.mk.injEq] at h
      exact .inr (.inr ⟨by simpa using hscripts, h.1.symm, h.2.symm⟩)

omit [DecidableEq Thread] in
theorem redis_effect (h : s.redis choice effect answer = some (s', r)) : s' = s ∨ s' = effect := by
  rcases redis_eq_some h with ⟨hs, -⟩ | ⟨hs, -⟩
  · exact .inr hs
  · exact hs

omit [DecidableEq Thread] in
theorem script_effect (h : s.script choice effect answer = some (s', r)) :
    s' = s ∨ s' = effect := by
  rcases script_eq_some h with ⟨-, hs, -⟩ | ⟨hs, -⟩ | ⟨-, hs, -⟩
  · exact .inr hs
  · exact hs
  · exact .inl hs

end Redis

/-- What a step of a thread does. -/
inductive Effect (t : Thread) (s : World Thread) : Cmd Thread → World Thread → Prop
  | nothing {c} : Effect t s c s
  | registering {channelUuid state} :
      Effect t s (.setState channelUuid state .registration)
        { s with registering := t :: s.registering }
  | registered {channelUuid state} :
      Effect t s (.setState channelUuid state .registration)
        { (s.harmState channelUuid (some state.process)).putState channelUuid state with
          registering := t :: s.registering, registered := state :: s.registered }
  | stored {channelUuid state reason} (hreason : reason ≠ .registration) :
      Effect t s (.setState channelUuid state reason)
        ((s.harmState channelUuid (some state.process)).putState channelUuid state)
  | compared {channelUuid expected new instance' triesLeft}
      (hfound : s.states.get channelUuid = some expected) :
      Effect t s (.casState channelUuid expected new instance' triesLeft)
        ((s.harmState channelUuid instance').putState channelUuid new)
  | comparedAndDeleted {channelUuid expected instance' triesLeft}
      (hfound : s.states.get channelUuid = some expected) :
      Effect t s (.cadState channelUuid expected instance' triesLeft)
        ((s.harmState channelUuid (some instance')).dropState channelUuid)
  | deleted {channelUuid instance'} :
      Effect t s (.deleteState channelUuid instance')
        ((s.harmState channelUuid (some instance')).dropState channelUuid)
  | scanned : Effect t s .scan { s with scans := s.scans + 1 }
  | lockTried {name} : Effect t s (.acquireLock name) { s with serial := s.serial + 1 }
  /-- A lock is taken, and nobody knows. -/
  | lockTaken {name} (hfree : s.locks name = none) :
      Effect t s (.acquireLock name)
        { s with serial := s.serial + 1, locks := update s.locks name (some ⟨t, s.serial⟩) }
  | lockAcquired {name} (hfree : s.locks name = none) :
      Effect t s (.acquireLock name)
        ({ s with serial := s.serial + 1, locks := update s.locks name (some ⟨t, s.serial⟩) }.hold t
          name (some ⟨t, s.serial⟩))
  | lockGivenUp {name token} : Effect t s (.releaseLock name token) (s.hold t name none)
  | lockReleased {name token} (hstored : s.locks name = some token) :
      Effect t s (.releaseLock name token) ((s.hold t name none).dropLock name)
  | lockRenewed {name token} :
      Effect t s (.renewLock name token) { s with expired := s.expired.filter (· ≠ token) }
  | lockDeleted {name token} : Effect t s (.deleteLock name token) (s.dropLock name)
  | lockExtended {name token} :
      Effect t s (.expireLock name token) { s with expired := s.expired.filter (· ≠ token) }
  | movedAside {path instance' dir} (hdir : s.dirs path = some dir) :
      Effect t s (.moveAside path instance') ((s.harm dir.tenants instance').setDir path none)
  | made {path} : Effect t s (.mkdir path) (s.setDir path (some ((s.dirs path).getD {})))
  | spawned {path dir process} (hdir : s.dirs path = some dir)
      (hpid : s.processes process.1 = none) (hborn : process ∉ s.born) :
      Effect t s (.popen path)
        ({ s with
            processes := update s.processes process.1 (some process.2)
            born := process :: s.born
            spawned :=
              { process, path, thread := t, lock := s.holding t (.channel path.2) } ::
                s.spawned }.setDir path (some { dir with tenants := process :: dir.tenants }))
  | signalled {process instance' kill ticks} (hpid : s.processes process.1 = some ticks) :
      Effect t s (.killpg process instance' kill) (s.harm [(process.1, ticks)] instance')
  | killed {process instance' ticks} (hpid : s.processes process.1 = some ticks) :
      Effect t s (.killpg process instance' true)
        { s.harm [(process.1, ticks)] instance' with
          processes := update s.processes process.1 none }
  | ownerTmpWritten {path process dir} (hdir : s.dirs path = some dir) :
      Effect t s (.writeOwnerTmp path process)
        (s.setDir path (some { dir with ownerTmp := some process }))
  | ownerTmpUnlinked {path dir} (hdir : s.dirs path = some dir) :
      Effect t s (.unlinkOwnerTmp path) (s.setDir path (some { dir with ownerTmp := none }))
  | ownerReplaced {path process dir tmp} (hdir : s.dirs path = some dir)
      (htmp : dir.ownerTmp = some tmp) :
      Effect t s (.replaceOwner path process)
        (s.setDir path (some { dir with owner := some tmp, ownerTmp := none }))
  | idled {channelUuid viewerId seen} :
      Effect t s (.idle channelUuid viewerId seen)
        { s with idled := (t, channelUuid, viewerId, seen) :: s.idled }
  | remembered {worker channelUuid entry} :
      Effect t s (.rememberManifest worker channelUuid entry)
        { s with caches := update s.caches worker ((s.caches worker).set channelUuid entry) }

/-- Every step is one of these. -/
theorem exec_effect {c : Cmd Thread} {choice : Choice} {r : Except Failure c.Answer}
    (h : s.exec t c choice = some (s', r)) : Effect t s c s' := by
  cases c with
  | query q =>
      obtain ⟨a, -, h⟩ := Option.map_eq_some_iff.mp h
      cases h
      exact .nothing
  | setState channelUuid state reason =>
      cases reason with
      | registration =>
          rcases redis_effect h with rfl | rfl
          · exact .registering
          · exact .registered
      | marker =>
          rcases redis_effect h with rfl | rfl
          · exact .nothing
          · exact .stored (by simp)
      | unguarded =>
          rcases redis_effect h with rfl | rfl
          · exact .nothing
          · exact .stored (by simp)
  | casState channelUuid expected new instance' triesLeft =>
      simp only [exec] at h
      split at h
      · next hfound =>
          rcases script_effect h with rfl | rfl
          · exact .nothing
          · exact .compared hfound
      · rcases script_effect h with rfl | rfl <;> exact .nothing
  | cadState channelUuid expected instance' triesLeft =>
      simp only [exec] at h
      split at h
      · next hfound =>
          rcases script_effect h with rfl | rfl
          · exact .nothing
          · exact .comparedAndDeleted hfound
      · rcases script_effect h with rfl | rfl <;> exact .nothing
  | deleteState channelUuid instance' =>
      rcases redis_effect h with rfl | rfl
      · exact .nothing
      · exact .deleted
  | scan =>
      rcases redis_effect h with rfl | rfl
      · exact .nothing
      · exact .scanned
  | acquireLock name =>
      simp only [exec] at h
      split at h
      · rcases redis_effect h with rfl | rfl <;> exact .lockTried
      · next hfree =>
          have hfree : s.locks name = none := by simpa using hfree
          split at h <;> cases h
          · exact .lockAcquired hfree
          · exact .lockTried
          · exact .lockTaken hfree
  | releaseLock name token =>
      rcases script_effect h with rfl | rfl
      · exact .lockGivenUp
      · split
        · next hstored => exact .lockReleased hstored
        · exact .lockGivenUp
  | renewLock name token =>
      rcases script_effect h with rfl | rfl
      · exact .nothing
      · exact .lockRenewed
  | deleteLock name token =>
      rcases redis_effect h with rfl | rfl
      · exact .nothing
      · exact .lockDeleted
  | expireLock name token =>
      rcases redis_effect h with rfl | rfl
      · exact .nothing
      · exact .lockExtended
  | moveAside path instance' =>
      simp only [exec] at h
      split at h <;> cases h
      · exact .nothing
      · next hdir => exact .movedAside hdir
  | mkdir path =>
      simp only [exec] at h
      split at h <;> cases h
      · exact .nothing
      · exact .made
  | popen path =>
      simp only [exec] at h
      split at h
      · cases h; exact .nothing
      · cases h; exact .nothing
      · next hdir =>
          split at h
          · next hfree =>
              cases h
              exact .spawned hdir hfree.2.1 hfree.2.2
          · contradiction
  | killpg process instance' kill =>
      simp only [exec] at h
      split at h
      · cases h; exact .nothing
      · next hpid =>
          cases kill <;> cases h
          · exact .signalled hpid
          · exact .killed hpid
  | writeOwnerTmp path process =>
      simp only [exec] at h
      split at h
      · cases h; exact .nothing
      · cases h; exact .nothing
      · next hdir => cases h; exact .ownerTmpWritten hdir
  | unlinkOwnerTmp path =>
      simp only [exec] at h
      split at h <;> cases h
      · exact .nothing
      · next hdir => exact .ownerTmpUnlinked hdir
  | replaceOwner path process =>
      simp only [exec] at h
      split at h
      · cases h; exact .nothing
      · cases h; exact .nothing
      · next hfound =>
          cases h
          obtain ⟨dir, hdir, htmp⟩ := Option.bind_eq_some_iff.mp hfound
          obtain ⟨tmp, htmp, heq⟩ := Option.map_eq_some_iff.mp htmp
          cases heq
          exact .ownerReplaced hdir htmp
  | idle channelUuid viewerId seen =>
      simp only [exec] at h
      split at h <;> cases h
      · exact .idled
      · exact .nothing
  | rememberManifest worker channelUuid entry => cases h; exact .remembered
  | answerManifest suppliedToken manifest writers => cases h; exact .nothing

/-- Time passes by itself. -/
theorem Effect.clock {c : Cmd Thread} (h : Effect t s c s') : s'.clock = s.clock := by
  cases h <;> rfl

/-- What is registered stays. -/
theorem Effect.registered_mono {c : Cmd Thread} (h : Effect t s c s') :
    ∀ R ∈ s.registered, R ∈ s'.registered := by
  intro R hR
  cases h with
  | registered => exact List.mem_cons_of_mem _ hR
  | _ => exact hR

end World

end TimeshiftBuffer

end DispatcharrPvr
