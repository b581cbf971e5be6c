import DispatcharrPvr.TimeshiftBuffer.Calls
import DispatcharrPvr.TimeshiftBuffer.Reaper.Conduct

/-!
# TimeshiftBuffer.Reaper.Rules

The plugin's steps, updates and teardowns as a reaper takes them: nothing of a
buffer is removed before its marker, or the absence of its state, has decided it.
-/

namespace DispatcharrPvr

namespace TimeshiftBuffer

open Interleaving Interleaving.Program Interleaving.Discipline Runs

variable {Thread : Type} [DecidableEq Thread]

namespace ReaperWorld

/-! ## the plugin's steps, taken by a reaper -/

section Lift

variable {α β : Type} {p : Prog Thread α}

omit [DecidableEq Thread] in
theorem lift_bind {f : α → Prog Thread β} :
    lift (p.bind f) = (lift p).bind fun a => lift (f a) := by
  induction p with
  | done a => rfl
  | raise e => rfl
  | call c next ih => exact congrArg _ (funext ih)

omit [DecidableEq Thread] in
theorem lift_tryExcept {handler : Failure → Prog Thread α} :
    lift (p.tryExcept handler) = (lift p).tryExcept fun e => lift (handler e) := by
  induction p with
  | done a => rfl
  | raise e => rfl
  | call c next ih => exact congrArg _ (funext ih)

omit [DecidableEq Thread] in
theorem lift_call (c : Cmd Thread) : lift (call c) = act (.plugin c) := by
  refine congrArg _ (funext fun r => ?_)
  cases r <;> rfl

omit [DecidableEq Thread] in
theorem calls_lift {C : Cmd Thread → Prop} (h : p.Calls C) :
    (lift p).Calls fun c => ∃ c', c = .plugin c' ∧ C c' := by
  induction p with
  | done a => trivial
  | raise e => trivial
  | call c next ih => exact ⟨⟨c, rfl, h.1⟩, fun r => ih r (h.2 r)⟩

end Lift

section Rules

variable {ticks : Thread → Nat} {t : Thread} {P : ReaperWorld Thread → Prop} {α β : Type}

/-- One step of the plugin's but the tracker's, as promised. -/
theorem keeps_plugin {c : Cmd Thread} {Q : Except Failure c.Answer → ReaperWorld Thread → Prop}
    (hP : (fairness ticks).Stable t P)
    (hidle : ∀ channelUuid viewerId seen, c ≠ .idle channelUuid viewerId seen)
    (hpromise : ∀ s, P s → Promise t s (.plugin c))
    (hQ : ∀ s choice w r, Inv s → P s → Undisputed t s (.plugin c) choice →
      s.shared.exec t c choice.toChoice = some (w, r) → P (s.noted t w c r) →
        Q r (s.noted t w c r)) :
    (fairness ticks).Keeps t P (lift (call c)) Q := by
  rw [lift_call]
  refine Keeps.perform hP fun s hinv hPs => ⟨hpromise s hPs, fun choice s' r hallowed hexec => ?_⟩
  obtain ⟨w, hw, rfl⟩ := exec_plugin hidle hexec
  obtain ⟨hshared, hreapers, hsightings, hleader, hterm⟩ := noted_shared (s := s) (t := t) (w := w) (r := r)
  have hinv' := hinv.plugin (hpromise s hPs) (World.exec_effect hw)
  have hnoted : Inv (s.noted t w c r) :=
    { scripts := by rw [hshared]; exact hinv'.scripts
      listed := by rw [hshared]; exact hinv'.listed
      backed := by rw [hsightings, hreapers, hleader, hterm]; exact hinv.backed
      termed := hinv.termed.later hreapers hsightings hleader hterm }
  exact ⟨⟨hnoted, fun t' _ => later_noted t'⟩,
    hQ s choice w r hinv hPs hallowed.1 hw (hP s _ hPs (later_noted t))⟩

/-- What calls only harmless commands, and those of a removal once it is decided. -/
theorem keeps_calls {p : Prog Thread α} {C : Cmd Thread → Prop}
    (hP : (fairness ticks).Stable t P) (hp : p.Calls C)
    (hC : ∀ c, C c → c.harmless = true ∨
      ∃ state, c.Removes state ∧ ∀ s, P s → s.Decided t state) :
    (fairness ticks).Keeps t P (lift p) (Leaving P fun _ => True) := by
  refine Keeps.of_calls (calls_lift hp) ?_
  rintro _ ⟨c, rfl, hc⟩
  rw [Keeping, ← act, ← lift_call]
  have hc := hC c hc
  refine keeps_plugin hP ?_ (fun s hPs => ?_) fun s choice w r _ _ _ _ hPs => ?_
  · rintro channelUuid viewerId seen rfl
    simp [Cmd.harmless, Cmd.Removes] at hc
  · have hpromise : c.harmless = true ∨ ∃ state, c.Removes state ∧ s.Decided t state :=
      hc.imp_right fun ⟨state, hremoves, hdecided⟩ => ⟨state, hremoves, hdecided s hPs⟩
    cases c with
    | setState => simp [Cmd.harmless, Cmd.Removes] at hc
    | casState => simp [Cmd.harmless, Cmd.Removes] at hc
    | idle => trivial
    | _ => exact hpromise
  · cases r with
    | ok a => exact ⟨hPs, trivial⟩
    | error e => exact hPs

/-- A harmless command. -/
theorem keeps_harmless {c : Cmd Thread} (hP : (fairness ticks).Stable t P)
    (hc : c.harmless = true) :
    (fairness ticks).Keeps t P (lift (call c)) (Leaving P fun _ => True) :=
  keeps_calls (C := fun c => c.harmless = true) hP (calls_perform.mpr hc) fun _ h => .inl h

/-! ### the updates -/

section Updates

variable {channelUuid : Text} {instance' : Option ProcessId}

/-- The tick has written the channel's marker over this heartbeat. -/
def Marked (t : Thread) (channelUuid : Text) (value : Int) (s : ReaperWorld Thread) : Prop :=
  (t, (s.reapers t).tick, channelUuid, value) ∈ s.marked

/-- The tick has found no state of the channel. -/
def Missed (t : Thread) (channelUuid : Text) (s : ReaperWorld Thread) : Prop :=
  (t, (s.reapers t).tick, channelUuid) ∈ s.missed

theorem stable_fairWrite {old new : BufferState} :
    (fairness ticks).Stable t fun s => s.FairWrite t channelUuid old new :=
  fun _ _ h hlater => h.later hlater

/-- A channel's state, and what is noted when there is none. -/
theorem keeps_askState (hP : (fairness ticks).Stable t P) :
    (fairness ticks).Keeps t P (lift (ask (.state channelUuid))) fun r s => P s ∧
      (r = .ok none → Missed t channelUuid s) ∧
        ∀ state, r = .ok (some state) → WellListed channelUuid state := by
  refine keeps_plugin hP (by simp) (fun _ _ => .inl rfl) fun s choice w r hinv _ _ hexec hPs => ?_
  obtain ⟨a, hanswer, heq⟩ := Option.map_eq_some_iff.mp hexec
  cases heq
  refine ⟨hPs, fun hr => ?_, fun state hr => ?_⟩
  · subst hr
    exact List.mem_cons_self
  · subst hr
    simp only [World.answer] at hanswer
    split at hanswer
    · simp at hanswer
    · exact hinv.listed _ _ (Except.ok.inj (Option.some.inj hanswer))

/-- `_cas_buffer_state`: its script is not refused; where it has won, it has found what it
expected, and it loses no last try. -/
theorem keeps_casBufferState {old new : BufferState} {triesLeft : Nat}
    (hP : (fairness ticks).Stable t P)
    (hfair : ∀ s, P s → s.FairWrite t channelUuid old new) :
    (fairness ticks).Keeps t P (lift (casBufferState channelUuid old new instance' triesLeft))
      fun r s => P s ∧
        (r = .ok true → instance'.isSome → Marked t channelUuid old.lastHeartbeat s) ∧
          (r = .ok false → 0 < triesLeft) := by
  rw [casBufferState, lift_tryExcept]
  refine Keeps.tryExcept (B := fun r s => P s ∧
      (r = .ok true → instance'.isSome → Marked t channelUuid old.lastHeartbeat s) ∧
      (r = .ok false → 0 < triesLeft) ∧ r ≠ .error .response)
    (keeps_plugin hP (by simp) hfair fun s choice w r hinv _ hallowed hexec hPs => ?_)
    (fun won s _ h => ⟨h.1, h.2.1, h.2.2.1⟩) fun e => ?_
  · refine ⟨hPs, fun hr hsome => ?_, fun hr => ?_, fun hr => ?_⟩
    · subst hr
      obtain ⟨p, rfl⟩ := Option.isSome_iff_exists.mp hsome
      exact List.mem_cons_self
    · subst hr
      cases triesLeft with
      | succ tries => exact Nat.succ_pos tries
      | zero =>
          have hfound : s.shared.states.get channelUuid = some old := hallowed
          simp only [World.exec, hfound, if_true] at hexec
          rcases World.script_eq_some hexec with ⟨-, -, h⟩ | ⟨-, h⟩ | ⟨-, -, h⟩ <;> simp at h
    · subst hr
      simp only [World.exec] at hexec
      split at hexec <;> simp only [World.script, hinv.scripts, if_true, World.redis] at hexec <;>
        split at hexec <;> simp at hexec
  · by_cases he : e = .response
    · subst he
      exact fun s _ h => absurd rfl h.2.2.2
    · rw [if_neg he]
      exact Keeps.raise fun s _ h => ⟨h.1, by simp, by simp⟩

/-- **`_update_buffer_state`** by a reaper: it comes to an end with what each outcome
says. -/
theorem keeps_tryUpdate {mutate : BufferState → Prog Thread (Option BufferState)}
    {G : BufferState → Prop} (hP : (fairness ticks).Stable t P)
    (hmutate : ∀ old, (fairness ticks).Keeps t P (lift (mutate old)) fun r s => P s ∧
      ∀ new, r = .ok (some new) → s.FairWrite t channelUuid old new ∧ G old) (tries : Nat) :
    (fairness ticks).Keeps t P (lift (tryUpdate channelUuid mutate instance' tries))
      fun r s => P s ∧ ∀ outcome, r = .ok outcome →
        (outcome = .absent → Missed t channelUuid s) ∧
        (∀ new, outcome = .written new → instance'.isSome →
          ∃ old, G old ∧ Marked t channelUuid old.lastHeartbeat s) ∧
        (0 < tries → outcome ≠ .contended) := by
  induction tries with
  | zero => exact Keeps.done fun s _ hPs => ⟨hPs, fun _ h => by simp [← Except.ok.inj h]⟩
  | succ tries ih =>
      rw [tryUpdate, bind_eq, lift_bind]
      refine (keeps_askState hP).bind (fun found => ?_) fun e s _ h => ⟨h.1, by simp⟩
      cases found with
      | none =>
          refine Keeps.done fun s _ h => ⟨h.1, fun outcome houtcome => ?_⟩
          simp [← Except.ok.inj houtcome, h.2.1]
      | some old =>
          refine Keeps.pre (P := P) ?_ fun s _ h => h.1
          dsimp only
          rw [bind_eq, lift_bind]
          refine (hmutate old).bind (fun changed => ?_) fun e s _ h => ⟨h.1, by simp⟩
          cases changed with
          | none => exact Keeps.done fun s _ h => ⟨h.1, fun _ h => by simp [← Except.ok.inj h]⟩
          | some new =>
              intro s hinv h
              obtain ⟨hPs, h⟩ := h
              obtain ⟨hfair, hG⟩ := h new rfl
              suffices hrest : (fairness ticks).Keeps t
                  (fun s => P s ∧ s.FairWrite t channelUuid old new) _ _ from
                hrest s hinv ⟨hPs, hfair⟩
              dsimp only
              rw [bind_eq, lift_bind]
              refine (keeps_casBufferState (hP.and stable_fairWrite) fun s h => h.2).bind
                (fun won => ?_) fun e s _ h => ⟨h.1.1, by simp⟩
              cases won with
              | true =>
                  refine Keeps.done fun s _ h => ⟨h.1.1, fun outcome houtcome => ?_⟩
                  obtain rfl := Except.ok.inj houtcome
                  exact ⟨by simp, fun _ _ hsome => ⟨old, hG, h.2.1 rfl hsome⟩, by simp⟩
              | false =>
                  intro s hinv h
                  refine (ih s hinv h.1.1).mono fun r s' hr => ⟨hr.1, fun outcome houtcome => ?_⟩
                  obtain ⟨habsent, hwritten, hcontended⟩ := hr.2 outcome houtcome
                  exact ⟨habsent, hwritten, fun _ => hcontended (h.2.2 rfl)⟩

end Updates

/-! ### a teardown -/

section Teardown

variable {state : BufferState}

/-- A command that is harmless or a step of this buffer's removal. -/
def TearsDown (state : BufferState) (c : Cmd Thread) : Prop :=
  c.harmless = true ∨ c.Removes state

omit [DecidableEq Thread] in
theorem tearsDown_of_removal {c : Cmd Thread} (h : c.OfRemoval state) : TearsDown state c := by
  cases c with
  | query | acquireLock | releaseLock | deleteLock => exact .inl rfl
  | killpg process instance' kill =>
      obtain rfl : instance' = some state.process := h
      exact .inr rfl
  | moveAside path instance' =>
      obtain ⟨hpath, rfl⟩ := h
      exact .inr ⟨rfl, hpath⟩
  | cadState | deleteState => exact .inr h
  | _ => exact h.elim

/-- **`_teardown_buffer`** of a buffer that has been idle: nothing is removed unless the
marker was written over that heartbeat, or there was no state. -/
theorem keeps_teardownBuffer (hP : (fairness ticks).Stable t P)
    (hseen : ∀ s, P s → s.SeenTwice t (state.channelUuid, none) state.lastHeartbeat) :
    (fairness ticks).Keeps t P
      (lift (teardownBuffer state (.heartbeatSince state.lastHeartbeat) false))
      fun _ s => P s := by
  rw [teardownBuffer, bind_eq, lift_bind]
  refine (keeps_tryUpdate (G := fun old => old.lastHeartbeat = state.lastHeartbeat) hP
    (fun old => ?_) stateUpdateAttempts).bind (fun outcome => ?_) fun e s _ h => h.1
  · rw [markStoppingUnless]
    split
    · exact Keeps.done fun s _ hPs => ⟨hPs, by simp⟩
    split
    · exact Keeps.done fun s _ hPs => ⟨hPs, by simp⟩
    · next habort =>
        have hvalue : old.lastHeartbeat = state.lastHeartbeat := by
          simpa [AbortIf.holds] using habort
        rw [bind_eq, lift_bind]
        refine (keeps_harmless hP rfl).bind (fun now => Keeps.done fun s _ h => ⟨h.1, ?_⟩)
          fun e s _ h => ⟨h, by simp⟩
        intro new hnew
        obtain rfl := Option.some.inj (Except.ok.inj hnew)
        exact ⟨⟨rfl, .refl _, fun viewerId hold hnot => absurd hold hnot, fun _ =>
          hvalue ▸ hseen s h.1⟩, hvalue⟩
  · split
    · exact Keeps.done fun s _ h => h.1
    next hdeclined =>
    intro s hinv h
    obtain ⟨habsent, hwritten, hcontended⟩ := h.2 outcome rfl
    have hcontended := hcontended (by decide)
    have hdecided : s.Decided t state := by
      refine ⟨hseen s h.1, ?_⟩
      cases outcome with
      | written new =>
          obtain ⟨old, hvalue, hmarked⟩ := hwritten new rfl rfl
          exact .inl (hvalue ▸ hmarked)
      | absent => exact .inr (habsent rfl)
      | declined => exact absurd rfl hdeclined
      | contended => exact absurd rfl hcontended
    have hstable : (fairness ticks).Stable t fun s => P s ∧ s.Decided t state :=
      hP.and fun _ _ h hlater => h.later hlater
    suffices hrest : (fairness ticks).Keeps t (fun s => P s ∧ s.Decided t state) _ _ from
      hrest s hinv ⟨h.1, hdecided⟩
    rw [bind_eq, lift_bind]
    refine (keeps_harmless hstable rfl).bind (fun now => Keeps.pre
      (P := fun s => P s ∧ s.Decided t state) ?_ fun s _ h => h.1) fun e s _ h => h.1
    simp only [hcontended, if_false]
    have hpost : ∀ {p : Prog Thread Bool}, p.Calls (Cmd.OfRemoval (markStopping state now)) →
        (fairness ticks).Keeps t (fun s => P s ∧ s.Decided t state) (lift p) fun _ s => P s :=
      fun hp => (keeps_calls hstable hp fun c hc => (tearsDown_of_removal hc).imp_right
        fun hremoves => ⟨markStopping state now, hremoves, fun s h => h.2⟩).post fun r s h => by
          cases r with
          | ok _ => exact h.1.1
          | error _ => exact h.1
    split
    · exact hpost calls_teardownUntrackedBuffer
    · exact hpost calls_removeBuffer

end Teardown

end Rules

end ReaperWorld

end TimeshiftBuffer

end DispatcharrPvr
