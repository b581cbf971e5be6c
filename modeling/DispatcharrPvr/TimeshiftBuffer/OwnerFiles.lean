import DispatcharrPvr.TimeshiftBuffer.StartLimit

/-!
# TimeshiftBuffer.OwnerFiles

No `ffmpeg` is leaked as long as no step takes the owner file from one that runs: a
start that has written its buffer's state leaves the process named in its directory,
whatever Redis loses, and one that has not is still to stop it.

A teardown's directory is found by its name after its marker; one that was delayed for
longer than the marker is trusted moves aside the directory of the buffer that has
replaced its own.
-/

namespace DispatcharrPvr

namespace TimeshiftBuffer

open Interleaving Runs

variable {Thread : Type} [DecidableEq Thread]

/-! ## what is accounted for -/

/-- A running `ffmpeg` is its channel's tracked instance, or is named by the owner file
of the directory it was started in, or is held by a start under way that has not yet
called the write that registers it. -/
def Accounted (c : Setting.PluginConfig Thread) (e : Spawned Thread) : Prop :=
  (∃ state, c.world.states.get e.path.2 = some state ∧ state.process = e.process) ∨
    c.world.ownerAt e.path = some e.process ∨
      ¬ Ended c e.thread ∧ e.thread ∉ c.world.registering

/-- The step finds the owner files as their own starts left them. -/
def KeepsOwnerFiles (_ : Thread) (s : World Thread) (c : Cmd Thread) (choice : Choice) : Prop :=
  s.KeepsOwners c choice

/-- Whatever this Redis does, owner files are kept. -/
def ownerSetting (py : Python) (maxConcurrent : Nat) (requests : Thread → Op) (scripts : Bool) :
    Setting Thread where
  py := py
  maxConcurrent := maxConcurrent
  requests := requests
  scripts := scripts
  supposed := KeepsOwnerFiles

omit [DecidableEq Thread] in
theorem ownerSetting_ownersKept (py : Python) (maxConcurrent : Nat) (requests : Thread → Op)
    (scripts : Bool) : (ownerSetting py maxConcurrent requests scripts).OwnersKept :=
  fun _ _ _ _ h => h

/-! ## one step -/

namespace Setting

variable {S : Setting Thread} {s s' : World Thread} {t : Thread} {cmd : Cmd Thread}

/-- Each process whose registering write has been called is named while it runs. -/
def AllNamed (s : World Thread) : Prop :=
  ∀ e ∈ s.spawned, e.thread ∈ s.registering → s.running e.process = true →
    s.ownerAt e.path = some e.process

/-- A process that runs behind a step ran before it, or is the one it spawned. -/
theorem running_of_effect (hinv : S.Inv s) (heffect : World.Effect t s cmd s')
    {e : Spawned Thread} (he : e ∈ s'.spawned) (hrunning : s'.running e.process = true) :
    (e ∈ s.spawned ∧ s.running e.process = true) ∨ ∃ path, cmd = .popen path ∧ e.thread = t := by
  cases heffect with
  | spawned hdir hpid hborn =>
      rcases List.mem_cons.mp he with rfl | he
      · exact .inr ⟨_, rfl, rfl⟩
      · have hbefore := (World.running_of_come (s := s) rfl hrunning).resolve_left fun heq =>
          hborn (heq ▸ hinv.spawnedBorn e he)
        exact .inl ⟨he, hbefore⟩
  | killed => exact .inl ⟨he, World.running_of_gone rfl hrunning⟩
  | _ => exact .inl ⟨he, hrunning⟩

/-- Whose registering write has been called behind a step, it was called before or by it. -/
theorem registering_of_effect (heffect : World.Effect t s cmd s') {t' : Thread}
    (h : t' ∈ s'.registering) :
    t' ∈ s.registering ∨
      t' = t ∧ ∃ channelUuid state, cmd = .setState channelUuid state .registration := by
  cases heffect with
  | registering | registered =>
      rcases List.mem_cons.mp h with rfl | h
      · exact .inr ⟨rfl, _, _, rfl⟩
      · exact .inl h
  | _ => exact .inl h

/-- A step as promised leaves them named. -/
theorem AllNamed.of_effect {choice : Choice} (h : AllNamed s) (hkept : S.OwnersKept)
    (hinv : S.Inv s) (hpromise : S.Promise t s cmd) (hsupposed : S.supposed t s cmd choice)
    (heffect : World.Effect t s cmd s') : AllNamed s' := by
  intro e he hregistering hrunning
  rcases registering_of_effect heffect hregistering with hbefore | ⟨hthread, channel, state, rfl⟩
  · rcases running_of_effect hinv heffect he hrunning with ⟨he, hran⟩ | ⟨path, rfl, hthread⟩
    · exact owners_of_effect hkept hsupposed heffect (h e he hbefore hran) hran
    · -- who spawns has registered nothing
      obtain ⟨e', he', hthread'⟩ := hinv.registering _ hbefore
      exact absurd (hthread'.trans hthread) (hpromise e' he')
  · rcases running_of_effect hinv heffect he hrunning with ⟨he, hran⟩ | ⟨path, hcmd, -⟩
    · obtain ⟨e', he', hown, hprocess, hpath, -⟩ := hpromise.spawned
      obtain rfl := hinv.byThread e he e' he' (hthread.trans hown.symm)
      refine owners_of_effect hkept hsupposed heffect ?_ hran
      rw [hpath, hprocess]
      exact hpromise.named hkept (hprocess ▸ hran)
    · cases hcmd

/-- And so does what happens by itself. -/
theorem AllNamed.env {e : Env} (h : AllNamed s) (hkept : S.OwnersKept) (hinv : S.Inv s)
    (henv : s.env e = some s') : AllNamed s' := by
  intro e he hregistering hrunning
  have hrely : S.Rely e.thread s s' := Rely.env henv
  have hbefore := hrely.own e he rfl
  have hborn := hinv.spawnedBorn e hbefore
  have hran := hrely.dead _ hborn hrunning
  exact hrely.owners hkept _ _ hborn (h e hbefore (hrely.registering.mpr hregistering) hran) hrunning

end Setting

/-! ## every run -/

section Runs

/-- **No `ffmpeg` is leaked** in every run in which no step takes the owner file from one
that runs, whatever fails, expires or is lost. -/
theorem no_ffmpeg_leaked (py : Python) (maxConcurrent : Nat) (requests : Thread → Op)
    (scripts : Bool) {w : World Thread} {es : List (Event Thread Choice Env)}
    {c : Setting.PluginConfig Thread} (hw : Setting.Starts scripts w)
    (hkept : Meets (plugin py maxConcurrent requests).step (Taken KeepsOwnerFiles)
      { world := w } es)
    (hrun : run (plugin py maxConcurrent requests).step { world := w } es = some c) :
    ∀ e ∈ c.world.spawned, c.world.running e.process = true → Accounted c e := by
  have hkeeps := ownerSetting_ownersKept py maxConcurrent requests scripts
  have hinvariant := Setting.invariant_of_holds (J := Setting.AllNamed)
    (fun _ _ _ _ h => h)
    (fun hinv _ hpromise hsupposed heffect h =>
      h.of_effect hkeeps hinv hpromise hsupposed heffect)
    (fun hinv henv h => h.env hkeeps hinv henv)
    (Setting.holds_start (S := ownerSetting py maxConcurrent requests scripts) hw)
    (fun e he => by simp [hw.spawned] at he) hkept hrun
  obtain ⟨hholds, hnamed⟩ := hinvariant
  intro e he hrunning
  by_cases hregistering : e.thread ∈ c.world.registering
  · exact .inr (.inl (hnamed e he hregistering hrunning))
  · refine .inr (.inr ⟨fun hended => ?_, hregistering⟩)
    have hsettled : Setting.Settled e.thread c.world := by
      rcases hended with hdone | ⟨f, hraise⟩
      · exact hholds.safe _ _ hdone
      · exact hholds.safe _ _ hraise
    have hstopped := (hsettled.resolve_left hregistering e he rfl).2
    exact Bool.false_ne_true (hstopped.symm.trans hrunning)

end Runs

/-! ## a teardown that is late -/

section Late

instance decidableKeepsOwnerFiles (t : Thread) (s : World Thread) :
    (c : Cmd Thread) → (choice : Choice) → Decidable (KeepsOwnerFiles t s c choice)
  | .moveAside path _, _ =>
      inferInstanceAs (Decidable (∀ p ∈ s.ownerAt path, s.running p = false))
  | .writeOwnerTmp path _, choice =>
      inferInstanceAs (Decidable (choice.fileError = false ∧ (s.dirs path).isSome))
  | .unlinkOwnerTmp _, _ => .isFalse id
  | .replaceOwner path process, choice =>
      inferInstanceAs (Decidable (choice.fileError = false ∧
        (∃ dir ∈ s.dirs path, dir.ownerTmp = some process) ∧
          ∀ p ∈ s.ownerAt path, s.running p = true → p = process))
  | .query _, _ | .setState .., _ | .casState .., _ | .cadState .., _ | .deleteState .., _
  | .scan, _ | .acquireLock _, _ | .releaseLock .., _ | .renewLock .., _ | .deleteLock .., _
  | .expireLock .., _ | .mkdir _, _ | .popen _, _ | .killpg .., _ | .idle .., _
  | .rememberManifest .., _ | .answerManifest .., _ => .isTrue trivial

/-- A start, a stop of its buffer, and a start by another viewer. -/
def replaced : Nat → Op
  | 0 => loneStart
  | 1 => .stopBuffer
      { channelUuid := "c".toList, viewerId := none, suppliedToken := some "a".toList }
  | _ => .startBuffer
      { channelUuid := "c".toList
        viewerId := some "w".toList
        httpPort := 9192
        storagePath := "/data/timeshift".toList
        token := "b".toList }

/-- The buffer is started, and its teardown has come to the rename of its directory. -/
def stopUnderway : List (Event Nat Choice Env) :=
  .begins 0 :: goOn 0 22 ++ .begins 1 :: goOn 1 9

/-- Half a minute later the marker is trusted no more, and another start clears the
channel and registers its own buffer. -/
def replacement : List (Event Nat Choice Env) :=
  .world (.tick 31000000) :: .begins 2 :: goOn 2 15 ++ .steps 2 { process := (3, 0) } :: goOn 2 11

/-- The rename takes the new buffer's directory, and Redis loses its state. -/
def lateRename : List (Event Nat Choice Env) :=
  stopUnderway ++ replacement ++ goOn 1 1 ++ [.world (.loseState "c".toList)]

/-- A process runs that its start has registered, and no state is left, nor an owner
file in its directory. -/
def leaks (c : Setting.PluginConfig Nat) : Bool :=
  c.world.states.isEmpty && c.world.spawned.any fun e =>
    c.world.running e.process && c.world.ownerAt e.path == none &&
      decide (e.thread ∈ c.world.registering)

/-- The new buffer's `ffmpeg` runs on, and nothing names it. -/
theorem lateRename_leaks :
    ¬ ∀ (py : Python) (maxConcurrent : Nat) (requests : Nat → Op) (scripts : Bool)
      (w : World Nat) (es : List (Event Nat Choice Env)) (c : Setting.PluginConfig Nat),
      Setting.Starts scripts w →
      (∀ t choice, .steps t choice ∈ es → choice.fileError = false) →
      run (plugin py maxConcurrent requests).step { world := w } es = some c →
      ∀ e ∈ c.world.spawned, c.world.running e.process = true → Accounted c e := by
  intro hall
  have hleaks : (run (plugin numberless 1 replaced).step { world := {} } lateRename).any leaks =
      true := by decide +kernel
  have hwrites : ∀ t choice, .steps t choice ∈ lateRename → choice.fileError = false := by
    intro t choice hin
    simp only [lateRename, stopUnderway, replacement, goOn, List.mem_append, List.mem_cons,
      List.mem_replicate, Event.steps.injEq, reduceCtorEq, List.not_mem_nil] at hin
    grind
  obtain ⟨c, hrun, hleaks⟩ := (Option.any_eq_true _ _).mp hleaks
  simp only [leaks, Bool.and_eq_true, List.isEmpty_iff, List.any_eq_true, beq_iff_eq,
    decide_eq_true_eq] at hleaks
  obtain ⟨hstates, e, he, ⟨hrunning, howner⟩, hregistering⟩ := hleaks
  rcases hall numberless 1 replaced true {} lateRename c Setting.starts_empty hwrites hrun e he
    hrunning with ⟨state, hstate, -⟩ | hnamed | ⟨-, hheld⟩
  · simp [hstates, Dict.get] at hstate
  · simp [howner] at hnamed
  · exact hheld hregistering

/-- Without the rename the new buffer is named. -/
theorem no_ffmpeg_leaked_replacement :
    ∃ c, run (plugin numberless 1 replaced).step { world := {} } (stopUnderway ++ replacement) =
        some c ∧ c.world.running (3, 0) = true ∧
      ∀ e ∈ c.world.spawned, c.world.running e.process = true → Accounted c e := by
  have hruns : (run (plugin numberless 1 replaced).step { world := {} }
      (stopUnderway ++ replacement)).any (fun c => c.world.running (3, 0)) = true := by
    decide +kernel
  obtain ⟨c, hrun, hrunning⟩ := (Option.any_eq_true _ _).mp hruns
  exact ⟨c, hrun, hrunning, no_ffmpeg_leaked numberless 1 replaced true Setting.starts_empty
    (by decide +kernel) hrun⟩

end Late

end TimeshiftBuffer

end DispatcharrPvr
