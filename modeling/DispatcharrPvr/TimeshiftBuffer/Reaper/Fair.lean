import DispatcharrPvr.TimeshiftBuffer.Reaper.Ticks
import DispatcharrPvr.TimeshiftBuffer.StartRules

/-!
# TimeshiftBuffer.Reaper.Fair

Reapers are fair where each `SET NX` that takes effect is that of a reaper whose
tracker is empty: what a reaper tears down or prunes it has seen unchanged at two
of its ticks, more than `idle_timeout` apart, in one term.
-/

namespace DispatcharrPvr

namespace TimeshiftBuffer

open Interleaving Interleaving.Program Interleaving.Discipline Runs

variable {Thread : Type} [DecidableEq Thread]

namespace ReaperWorld

/-! ## every run -/

/-- The reapers' configurations. -/
abbrev ReaperConfig (Thread : Type) :=
  Config (ReaperWorld Thread) Thread (ReaperCmd Thread) ReaperCmd.Answer Failure

/-- Before any reaper has begun: Redis runs scripts, and has any states. -/
structure Begins (w : ReaperWorld Thread) : Prop where
  scripts : w.shared.scripts = true
  listed : ∀ e ∈ w.shared.states, WellListed e.1 e.2
  reapers : w.reapers = fun _ => {}
  sightings : w.sightings = []
  marked : w.marked = []
  missed : w.missed = []

section Runs

variable {ticks : Thread → Nat} {w s s' : ReaperWorld Thread} {t : Thread}

omit [DecidableEq Thread] in
theorem Begins.inv (h : Begins w) : Inv w where
  scripts := h.scripts
  listed _ _ hstate := h.listed _ (Dict.mem_of_get hstate)
  backed t := by
    rw [h.reapers, h.sightings]
    exact ⟨w.term, ⟨by simp, by simp, by simp, by simp⟩, fun _ => rfl⟩
  termed := ⟨by simp [h.reapers], by simp [h.sightings], by simp [h.sightings]⟩

/-- What the plugin's operations come to, where no update loses its last try, the others may
leave. -/
theorem env_others_of_run {S : Setting Thread} (hguarded : S.Guarded) {w : World Thread}
    {es : List (Event Thread Choice Env)} {c : Setting.PluginConfig Thread}
    (hw : Setting.Starts S.scripts w)
    (htaken : Meets (plugin S.py S.maxConcurrent S.requests).step (Taken S.supposed)
      { world := w } es)
    (hrun : run (plugin S.py S.maxConcurrent S.requests).step { world := w } es = some c)
    (hscripts : s.shared.scripts = true) :
    s.env (.others c.world) = some { s with shared := c.world } := by
  have hinv := (Setting.holds_of_run hw htaken hrun).inv
  have hlisted : ∀ e ∈ c.world.states, WellListed e.1 e.2 := fun e he => by
    have hget := Dict.get_of_mem hinv.keys he
    exact ⟨(hinv.tracked _ _ hget).1, hinv.viewers hguarded _ _ hget⟩
  exact if_pos ⟨hinv.scripts.trans (hguarded.scripts.trans hscripts.symm), hlisted⟩

/-- Whoever leads at the end of a step that leaves the term has led before it. -/
theorem leader_of_step {c c' : ReaperConfig Thread}
    {e : Event Thread ReaperChoice (ReaperEnv Thread)}
    (h : (reaperLoops ticks).step c e = some c') :
    c.world.term ≤ c'.world.term ∧ (c'.world.term = c.world.term →
      ∀ t, c'.world.leader = some t → c.world.leader = some t) := by
  rcases Machine.step_cases h with ⟨t', -, hsame⟩ | ⟨t', choice, cmd, next, r, -, -, hexec⟩ |
    ⟨e', -, henv⟩
  · exact hsame ▸ ⟨Nat.le_refl _, fun _ _ h => h⟩
  · obtain ⟨hle, hkept⟩ := leader_of_exec hexec
    exact ⟨hle, fun hsame t hleads => hkept hsame ▸ hleads⟩
  · cases e' with
    | others shared =>
        simp only [reaperLoops, ReaperWorld.env] at henv
        split at henv
        · rw [← Option.some.inj henv]
          exact ⟨Nat.le_refl _, fun _ _ h => h⟩
        · contradiction
    | loseLeader =>
        rw [← Option.some.inj henv]
        exact ⟨Nat.le_refl _, by simp⟩
    | elapse t elapsed =>
        rw [← Option.some.inj henv]
        exact ⟨Nat.le_refl _, fun _ _ h => h⟩

/-- **A term is unbroken**: whoever leads in it has led ever since it began. -/
theorem leader_of_run {c c' : ReaperConfig Thread}
    {es : List (Event Thread ReaperChoice (ReaperEnv Thread))}
    (hrun : run (reaperLoops ticks).step c es = some c') (hterm : c'.world.term = c.world.term)
    (hleader : c'.world.leader = some t) : c.world.leader = some t := by
  have hinv := invariant (I := fun m : ReaperConfig Thread => c.world.term ≤ m.world.term ∧
      (m.world.term = c.world.term →
        ∀ t, m.world.leader = some t → c.world.leader = some t))
    (fun {m e m'} hI hstep => by
      obtain ⟨hle, hkept⟩ := leader_of_step hstep
      refine ⟨hI.1.trans hle, fun hsame t hleads => ?_⟩
      have hm : m.world.term = c.world.term := Nat.le_antisymm (hsame ▸ hle) hI.1
      exact hI.2 hm t (hkept (hsame.trans hm.symm) t hleads))
    ⟨Nat.le_refl _, fun _ _ h => h⟩ hrun
  exact hinv.2 hterm t hleader

/-- A heartbeat is looked at while the leader's key is the reaper's own. -/
def LooksLeading (t : Thread) (s : ReaperWorld Thread) : ReaperCmd Thread → ReaperChoice → Prop
  | .plugin (.idle ..), _ => s.leader = some t
  | _, _ => True

end Runs

/-! ## a lapse that goes unnoticed -/

section Lapse

variable {s : ReaperWorld Thread} {t : Thread}

instance decidableSightingOf (key : TrackerKey) (value : Int) (o : Sighting Thread) :
    Decidable (o.Of t key value) :=
  inferInstanceAs (Decidable (_ ∧ _ ∧ _))

instance decidableSeenTwice (key : TrackerKey) (value : Int) :
    Decidable (s.SeenTwice t key value) :=
  inferInstanceAs (Decidable (∃ first ∈ s.sightings, ∃ second ∈ s.sightings, _ ∧ _ ∧ _ ∧ _ ∧ _ ∧ _))

instance decidableUndisputed (t : Thread) (s : ReaperWorld Thread) :
    (c : ReaperCmd Thread) → (choice : ReaperChoice) → Decidable (Undisputed t s c choice)
  | .plugin (.casState channelUuid expected _ _ 0), _ =>
      inferInstanceAs (Decidable (s.shared.states.get channelUuid = some expected))
  | .plugin (.casState _ _ _ _ (_ + 1)), _ | .plugin (.query _), _ | .plugin (.setState ..), _
  | .plugin (.cadState ..), _ | .plugin (.deleteState ..), _ | .plugin .scan, _
  | .plugin (.acquireLock _), _ | .plugin (.releaseLock ..), _ | .plugin (.renewLock ..), _
  | .plugin (.deleteLock ..), _ | .plugin (.expireLock ..), _ | .plugin (.moveAside ..), _
  | .plugin (.mkdir _), _ | .plugin (.popen _), _ | .plugin (.killpg ..), _
  | .plugin (.writeOwnerTmp ..), _ | .plugin (.unlinkOwnerTmp _), _
  | .plugin (.replaceOwner ..), _ | .plugin (.idle ..), _ | .plugin (.rememberManifest ..), _
  | .plugin (.answerManifest ..), _ | .setLeader, _ | .getLeader, _ | .renewLeader, _
  | .clearTracker, _ | .settings, _ | .retainSeen, _ => .isTrue trivial

instance decidableLooksLeading (t : Thread) (s : ReaperWorld Thread) :
    (c : ReaperCmd Thread) → (choice : ReaperChoice) → Decidable (LooksLeading t s c choice)
  | .plugin (.idle ..), _ => inferInstanceAs (Decidable (s.leader = some t))
  | .plugin (.query _), _ | .plugin (.setState ..), _ | .plugin (.casState ..), _
  | .plugin (.cadState ..), _ | .plugin (.deleteState ..), _ | .plugin .scan, _
  | .plugin (.acquireLock _), _ | .plugin (.releaseLock ..), _ | .plugin (.renewLock ..), _
  | .plugin (.deleteLock ..), _ | .plugin (.expireLock ..), _ | .plugin (.moveAside ..), _
  | .plugin (.mkdir _), _ | .plugin (.popen _), _ | .plugin (.killpg ..), _
  | .plugin (.writeOwnerTmp ..), _ | .plugin (.unlinkOwnerTmp _), _
  | .plugin (.replaceOwner ..), _ | .plugin (.rememberManifest ..), _
  | .plugin (.answerManifest ..), _ | .setLeader, _ | .getLeader, _ | .renewLeader, _
  | .clearTracker, _ | .settings, _ | .retainSeen, _ => .isTrue trivial

instance decidableTermsAnew (t : Thread) (s : ReaperWorld Thread) :
    (c : ReaperCmd Thread) → (choice : ReaperChoice) → Decidable (TermsAnew t s c choice)
  | .setLeader, choice =>
      inferInstanceAs (Decidable (s.leader = none → choice.failure ≠ some false →
        (s.reapers t).tracker = []))
  | .plugin _, _ | .getLeader, _ | .renewLeader, _ | .clearTracker, _ | .settings, _
  | .retainSeen, _ => .isTrue trivial

end Lapse

end ReaperWorld

end TimeshiftBuffer

end DispatcharrPvr
