import DispatcharrPvr.TimeshiftBuffer.StartRules

/-!
# TimeshiftBuffer.StartLimit

Buffer starts respect the limit and each other, whatever the interleaving and
wherever their locks expire, save between a start's last renewal and its write.
-/

namespace DispatcharrPvr

namespace TimeshiftBuffer

open Interleaving Runs

variable {Thread : Type} [DecidableEq Thread]

/-! ## the steps that are supposed to happen -/

/-- No update or delete loses its last try, and a start's write of its buffer
comes before either of its locks has expired. -/
def Punctual (t : Thread) (s : World Thread) : Cmd Thread → Choice → Prop
  | .casState channelUuid expected _ _ 0, _ => s.states.get channelUuid = some expected
  | .cadState channelUuid expected _ 0, _ => s.states.get channelUuid = some expected
  | .setState channelUuid _ .registration, _ => s.Unexpired t channelUuid
  | _, _ => True

instance decidableUnexpired (s : World Thread) (t : Thread) (channelUuid : Text) :
    Decidable (s.Unexpired t channelUuid) :=
  inferInstanceAs (Decidable (∀ name ∈ [LockName.channel channelUuid, .slot],
    ∀ token ∈ s.holding t name, token ∉ s.expired))

instance decidablePunctual (t : Thread) (s : World Thread) :
    (c : Cmd Thread) → (choice : Choice) → Decidable (Punctual t s c choice)
  | .casState channelUuid expected _ _ 0, _ =>
      inferInstanceAs (Decidable (s.states.get channelUuid = some expected))
  | .cadState channelUuid expected _ 0, _ =>
      inferInstanceAs (Decidable (s.states.get channelUuid = some expected))
  | .setState channelUuid _ .registration, _ => decidableUnexpired s t channelUuid
  | .casState _ _ _ _ (_ + 1), _ | .cadState _ _ _ (_ + 1), _ | .setState _ _ .marker, _
  | .setState _ _ .unguarded, _ | .query _, _ | .deleteState .., _ | .scan, _
  | .acquireLock _, _ | .releaseLock .., _ | .renewLock .., _ | .deleteLock .., _
  | .expireLock .., _ | .moveAside .., _ | .mkdir _, _ | .popen _, _ | .killpg .., _
  | .writeOwnerTmp .., _ | .unlinkOwnerTmp _, _ | .replaceOwner .., _ | .idle .., _
  | .rememberManifest .., _ | .answerManifest .., _ => .isTrue trivial

/-- Redis runs scripts, and the steps are punctual. -/
def punctualSetting (py : Python) (maxConcurrent : Nat) (requests : Thread → Op) :
    Setting Thread where
  py := py
  maxConcurrent := maxConcurrent
  requests := requests
  scripts := true
  supposed := Punctual

omit [DecidableEq Thread] in
theorem punctualSetting_orderly (py : Python) (maxConcurrent : Nat) (requests : Thread → Op) :
    (punctualSetting py maxConcurrent requests).Orderly where
  scripts := rfl
  lastCas _ _ _ _ _ _ _ h := h
  lastCad _ _ _ _ _ _ h _ := h
  punctual _ _ _ _ _ h := h

/-! ## one step -/

/-- What the thread does next is the write that registers this instance. -/
def Registering (c : Setting.PluginConfig Thread) (t : Thread) (channelUuid : Text)
    (state : BufferState) : Prop :=
  ∃ next, c.left t = some (.call (.setState channelUuid state .registration) next)

/-- The thread's operation has come to its end. -/
def Ended (c : Setting.PluginConfig Thread) (t : Thread) : Prop :=
  c.left t = some (.done ()) ∨ ∃ e, c.left t = some (.raise e)

theorem Dict.length_set_le {α : Type} (d : Dict α) (key : Text) (value : α) :
    (d.set key value).length ≤ d.length + 1 := by
  have hkeys := congrArg List.length (keys_set d key value)
  split at hkeys <;> simp at hkeys <;> omega

namespace Setting

variable {S : Setting Thread} {t : Thread} {s s' : World Thread} {c : Cmd Thread}

/-- A step as promised leaves each state that of its instance. -/
theorem continues_of_effect (horderly : S.Orderly) (hpromise : S.Promise t s c)
    (hsupposed : ∀ channelUuid state, c = .setState channelUuid state .registration →
      s.Unexpired t channelUuid)
    (heffect : World.Effect t s c s') {channelUuid : Text} {old new : BufferState}
    (hold : s.states.get channelUuid = some old) (hnew : s'.states.get channelUuid = some new) :
    old.Continues new := by
  have hafter := statesAfter_of_effect horderly.toGuarded hpromise heffect
  generalize s'.states = states at hafter hnew
  cases hafter with
  | same => exact Option.some.inj (hold.symm.trans hnew) ▸ .refl old
  | registers hregisters =>
      obtain ⟨hnone, -⟩ := hregisters.alone horderly (hsupposed _ _ rfl)
      rw [Dict.get_set] at hnew
      split at hnew
      · next heq => simp [← heq, hold] at hnone
      · exact Option.some.inj (hold.symm.trans hnew) ▸ .refl old
  | changes hfound hchanges =>
      rw [Dict.get_set] at hnew
      split at hnew
      · next heq =>
          obtain rfl := Option.some.inj (hold.symm.trans (heq ▸ hfound))
          exact Option.some.inj hnew ▸ hchanges.continues
      · exact Option.some.inj (hold.symm.trans hnew) ▸ .refl old
  | removes | deletes =>
      rw [Dict.get_erase] at hnew
      split at hnew
      · contradiction
      · exact Option.some.inj (hold.symm.trans hnew) ▸ .refl old

/-- Nothing that happens by itself stores a state. -/
theorem continues_of_env {e : Env} (henv : s.env e = some s') {channelUuid : Text}
    {old new : BufferState} (hold : s.states.get channelUuid = some old)
    (hnew : s'.states.get channelUuid = some new) : old.Continues new := by
  rcases states_of_env henv with hsame | ⟨channel, herase⟩
  · exact Option.some.inj (hold.symm.trans (hsame ▸ hnew)) ▸ .refl old
  · rw [herase, Dict.get_erase] at hnew
    split at hnew
    · contradiction
    · exact Option.some.inj (hold.symm.trans hnew) ▸ .refl old

end Setting

/-! ## every run -/

/-- **Starts respect the limit and each other**, in every run whose steps are
punctual: a start registers its instance holding both its locks, where no state
is, and no more states are tracked then than the limit; what a state is replaced
by is the same instance's; and a start that has ended without having called that
write has stopped its `ffmpeg`. -/
theorem starts_respect_limit (py : Python) (maxConcurrent : Nat) (requests : Thread → Op)
    {w : World Thread} {es : List (Event Thread Choice Env)} {e : Event Thread Choice Env}
    {c c' : Setting.PluginConfig Thread} (hw : Setting.Starts true w)
    (hpunctual : Meets (plugin py maxConcurrent requests).step (Taken Punctual)
      { world := w } (es ++ [e]))
    (hrun : run (plugin py maxConcurrent requests).step { world := w } es = some c)
    (hstep : (plugin py maxConcurrent requests).step c e = some c') :
    (∀ t choice channelUuid state, e = .steps t choice → Registering c t channelUuid state →
      c.world.Locked t channelUuid ∧ c.world.states.get channelUuid = none ∧
        c'.world.states.length ≤ maxConcurrent) ∧
    (∀ channelUuid old new, c.world.states.get channelUuid = some old →
      c'.world.states.get channelUuid = some new → old.Continues new) ∧
    ∀ t, Ended c t → t ∉ c.world.registering →
      ∀ spawned ∈ c.world.spawned, spawned.thread = t →
        c.world.running spawned.process = false := by
  obtain ⟨hbefore, htaken, -⟩ := hpunctual.append hrun
  have horderly := punctualSetting_orderly py maxConcurrent requests
  have hholds := Setting.holds_of_run (S := punctualSetting py maxConcurrent requests) hw
    hbefore hrun
  refine ⟨?_, ?_, ?_⟩
  · rintro t choice channelUuid state rfl ⟨next, hleft⟩
    have hunexpired : c.world.Unexpired t channelUuid := htaken _ _ hleft
    have hregisters : Setting.Registers _ t c.world channelUuid state := hholds.promise hleft
    obtain ⟨hnone, hcount⟩ := hregisters.alone horderly hunexpired
    refine ⟨hregisters.locked horderly.toGuarded hunexpired, hnone, ?_⟩
    simp only [Machine.step, hleft] at hstep
    obtain ⟨⟨w', r⟩, hexec, rfl⟩ := Option.map_eq_some_iff.mp hstep
    have hlength := Dict.length_set_le c.world.states channelUuid state
    rcases World.redis_effect hexec with rfl | rfl
    · exact Nat.le_of_lt hcount
    · exact Nat.le_trans hlength hcount
  · intro channelUuid old new hold hnew
    cases e with
    | begins t =>
        simp only [Machine.step] at hstep
        split at hstep
        · obtain rfl := Option.some.inj hstep
          exact Option.some.inj (hold.symm.trans hnew) ▸ .refl old
        · contradiction
    | steps t choice =>
        simp only [Machine.step] at hstep
        split at hstep
        · next cmd next hleft =>
            obtain ⟨⟨w', r⟩, hexec, rfl⟩ := Option.map_eq_some_iff.mp hstep
            have hpromise := hholds.promise hleft
            have hsupposed := htaken cmd next hleft
            refine Setting.continues_of_effect horderly hpromise ?_ (World.exec_effect hexec)
              hold hnew
            rintro channel state rfl
            exact hsupposed
        · contradiction
    | world e =>
        obtain ⟨w', henv, rfl⟩ := Option.map_eq_some_iff.mp hstep
        exact Setting.continues_of_env henv hold hnew
  · rintro t hended hfirst spawned hspawned hthread
    have hsettled : Setting.Settled t c.world := by
      rcases hended with hdone | ⟨f, hraise⟩
      · exact hholds.safe t _ hdone
      · exact hholds.safe t _ hraise
    exact (hsettled.resolve_left hfirst spawned hspawned hthread).2

/-- The buffer of the channel, started alone. -/
def loneStart : Op :=
  .startBuffer
    { channelUuid := "c".toList
      viewerId := some "v".toList
      httpPort := 9192
      storagePath := "/data/timeshift".toList
      token := "a".toList }

/-- A Python that takes no text for a number. -/
def numberless : Python where
  isUuid _ := true
  milliseconds _ := none

/-- So many steps of a thread. -/
def goOn (t n : Nat) : List (Event Nat Choice Env) := List.replicate n (.steps t {})

/-- The starts of two channels. -/
def rivals : Nat → Op
  | 0 => loneStart
  | _ => .startBuffer
      { channelUuid := "d".toList
        viewerId := some "w".toList
        httpPort := 9192
        storagePath := "/data/timeshift".toList
        token := "b".toList }

/-- The lock of the slot expires when the first has its `ffmpeg`, and the second takes
it; the first gives up, and the second comes to the write that registers it. -/
def rivalSteps : List (Event Nat Choice Env) :=
  .begins 0 :: goOn 0 12 ++ [.world (.expireLock .slot), .begins 1] ++ goOn 1 9 ++ goOn 0 13 ++
    goOn 1 1 ++ .steps 1 { process := (3, 0) } :: goOn 1 8

/-- Two starts at once, with a limit of one. -/
theorem starts_respect_limit_rivals :
    ∃ c c', run (plugin numberless 1 rivals).step { world := {} } rivalSteps = some c ∧
      (plugin numberless 1 rivals).step c (.steps 1 {}) = some c' ∧
      (c.world.Locked 1 "d".toList ∧ c.world.states.get "d".toList = none ∧
        c'.world.states.length ≤ 1) ∧
      c.world.spawned.map (·.thread) = [1, 0] ∧
      ∀ spawned ∈ c.world.spawned, spawned.thread = 0 →
        c.world.running spawned.process = false := by
  have hsome : (run (plugin numberless 1 rivals).step { world := {} } rivalSteps).isSome := by
    decide +kernel
  have hnext : ((plugin numberless 1 rivals).step (Option.get _ hsome) (.steps 1 {})).isSome := by
    decide +kernel +revert
  have hspawned : (Option.get _ hsome).world.spawned.map (·.thread) = [1, 0] := by
    decide +kernel +revert
  have hfirst : (0 : Nat) ∉ (Option.get _ hsome).world.registering := by decide +kernel +revert
  obtain ⟨state, hregistering⟩ :
      ∃ state, Registering (Option.get _ hsome) 1 "d".toList state := ⟨_, _, rfl⟩
  obtain ⟨hrespected, -, hstopped⟩ := starts_respect_limit numberless 1 rivals
    Setting.starts_empty (by decide +kernel) (Option.some_get hsome).symm
    (Option.some_get hnext).symm
  exact ⟨_, _, (Option.some_get hsome).symm, (Option.some_get hnext).symm,
    hrespected 1 {} _ state rfl hregistering, hspawned, hstopped 0 (.inl rfl) hfirst⟩

end TimeshiftBuffer

end DispatcharrPvr
