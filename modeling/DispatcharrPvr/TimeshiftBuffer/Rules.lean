import DispatcharrPvr.TimeshiftBuffer.Steps

/-!
# TimeshiftBuffer.Rules

The rules by which the operations are shown to conduct themselves: for the
commands, the updates of a state, the removals, the locks and the teardown.
-/

namespace DispatcharrPvr

namespace TimeshiftBuffer

open Interleaving Interleaving.Program Interleaving.Discipline

namespace Setting

variable {Thread : Type} [DecidableEq Thread] {S : Setting Thread} {t : Thread}
  {P : World Thread → Prop} {α : Type}

/-! ## what a thread knows -/

/-- The thread has spawned nothing, and these are the locks it holds. -/
def Tied (t : Thread) (held : LockName → Option (LockToken Thread)) (s : World Thread) : Prop :=
  s.Unspawned t ∧ s.holding t = held

/-- No lock. -/
def unheld : LockName → Option (LockToken Thread) := fun _ => none

/-- The channel's lock alone. -/
def heldFor (channelUuid : Text) (token : LockToken Thread) :
    LockName → Option (LockToken Thread) :=
  update unheld (.channel channelUuid) (some token)

/-- What the operation makes of a state that was there. -/
def Update (S : Setting Thread) (t : Thread) (channelUuid : Text) (instance' : Option ProcessId)
    (old new : BufferState) (s : World Thread) : Prop :=
  Changes s t (S.requests t) channelUuid old new instance' ∧ old.channelUuid = channelUuid ∧
    s.Seen old

/-- The thread's processes have been stopped, unless it has called the write that
registers its buffer. -/
def Settled (t : Thread) (s : World Thread) : Prop :=
  t ∈ s.registering ∨
    ∀ e ∈ s.spawned, e.thread = t → e.process ∈ s.born ∧ s.running e.process = false

section Stable

variable {held : LockName → Option (LockToken Thread)} {channelUuid : Text}
  {token : LockToken Thread} {state old new : BufferState} {instance' : Option ProcessId}

theorem stable_tied : (conduct S).Stable t (Tied t held) := fun _ _ h hrely =>
  ⟨fun e he ht => h.1 e (hrely.own e he ht) ht, hrely.holding.trans h.2⟩

theorem stable_seen : (conduct S).Stable t (World.Seen · state) := fun _ _ h hrely =>
  h.mono hrely.registered

theorem stable_under {only : Option BufferState} (htoken : token.thread = t) :
    (conduct S).Stable t (S.Under · channelUuid token only) := by
  intro s s' h hrely horderly hstored state hstate
  obtain ⟨old, hold, hsame⟩ := hrely.channel horderly channelUuid token htoken hstored state hstate
  obtain ⟨A, hA, hsame'⟩ := h horderly (hrely.locks _ token htoken hstored) old hold
  exact ⟨A, hA, BufferState.same_trans hsame hsame'⟩

theorem stable_update : (conduct S).Stable t (S.Update t channelUuid instance' old new) := by
  rintro s s' ⟨hchanges, hchannel, hseen⟩ hrely
  have hclock : ∀ {now : Int}, now ≤ s.clock → now ≤ s'.clock := fun h => h.trans hrely.clock
  refine ⟨?_, hchannel, hseen.mono hrely.registered⟩
  generalize S.requests t = op at hchanges ⊢
  cases hchanges with
  | attaches hstopping hnow hviewer => exact .attaches hstopping (hclock hnow) (hclock hviewer)
  | drops hviewer hnow hnew => exact .drops hviewer (hclock hnow) hnew
  | heartbeats hnow hcurrent => exact .heartbeats (hclock hnow) hcurrent
  | reads hnow hnew => exact .reads (hclock hnow) hnew
  | touches hnow hcurrent => exact .touches (hclock hnow) hcurrent
  | prunes hstale hnew => exact .prunes (fun e he => hrely.idled _ (hstale e he)) hnew
  | marks hremoves hseen' hsame habort =>
      exact .marks hremoves (hseen'.mono hrely.registered) hsame habort

theorem stable_settled : (conduct S).Stable t (Settled t) := by
  intro s s' h hrely
  refine h.imp hrely.registering.mp fun hstopped e he ht => ?_
  obtain ⟨hborn, hdead⟩ := hstopped e (hrely.own e he ht) ht
  refine ⟨hrely.born _ hborn, ?_⟩
  by_contra hrunning
  exact absurd (hrely.dead _ hborn (by simpa using hrunning)) (by simp [hdead])

theorem stable_clock {now : Int} : (conduct S).Stable t fun s => now ≤ s.clock :=
  fun _ _ h hrely => h.trans hrely.clock

end Stable

/-! ## the commands -/

/-- One command, as promised. -/
theorem keeps_call {c : Cmd Thread} {Q : Except Failure c.Answer → World Thread → Prop}
    (hP : (conduct S).Stable t P) (hpromise : ∀ s, S.Inv s → P s → S.Promise t s c)
    (hQ : ∀ s choice s' r, S.Inv s → P s → S.supposed t s c choice →
      s.exec t c choice = some (s', r) → (mild c = true → P s') → Q r s') :
    (conduct S).Keeps t P (call c) Q := by
  refine Keeps.perform hP fun s hinv hPs => ?_
  have hpromised := hpromise s hinv hPs
  refine ⟨hpromised, fun choice s' r hallowed hexec => ?_⟩
  have heffect := World.exec_effect hexec
  have hrely : ∀ t', t' ≠ t ∨ mild c = true → S.Rely t' s s' := fun t' hwhose =>
    Rely.step hinv hpromised hallowed heffect hwhose
  exact ⟨⟨Inv.step hinv hpromised heffect, fun t' hne => hrely t' (.inl hne)⟩,
    hQ s choice s' r hinv hPs hallowed hexec fun hmild => hP s s' hPs (hrely t (.inr hmild))⟩

/-- A mild command leaves what the thread knows. -/
theorem keeps_mild {c : Cmd Thread} (hP : (conduct S).Stable t P) (hmild : mild c = true)
    (hpromise : ∀ s, S.Inv s → P s → S.Promise t s c) :
    (conduct S).Keeps t P (call c) (Leaving P fun _ => True) :=
  keeps_call hP hpromise fun s choice s' r _ _ _ _ hP' => by
    cases r with
    | ok a => exact ⟨hP' hmild, trivial⟩
    | error e => exact hP' hmild

/-- One query, and what its answer says of the world. -/
theorem keeps_query {q : Query} {Q : Except Failure (q.Answer Thread) → World Thread → Prop}
    (hP : (conduct S).Stable t P) (hQ : ∀ s choice r, S.Inv s → P s →
      S.supposed t s (.query q) choice → s.answer choice q = some r → Q r s) :
    (conduct S).Keeps t P (ask q) Q :=
  keeps_call hP (fun _ _ _ => trivial) fun s choice s' r hinv hPs hsupposed hexec _ => by
    obtain ⟨r', hanswer, heq⟩ := Option.map_eq_some_iff.mp hexec
    cases heq
    exact hQ s choice r hinv hPs hsupposed hanswer

/-- One query, then the rest. -/
theorem keeps_ask {q : Query} {f : q.Answer Thread → Prog Thread α} {A : α → Prop}
    (hP : (conduct S).Stable t P)
    (hf : ∀ a, (conduct S).Keeps t P (f a) (Leaving P A)) :
    (conduct S).Keeps t P ((ask q).bind f) (Leaving P A) :=
  (keeps_mild (c := .query q) hP rfl fun _ _ _ => trivial).bindLeaving fun a _ => hf a

/-- The clock, which never fails. -/
theorem keeps_now {f : Int → Prog Thread α} {Q : Except Failure α → World Thread → Prop}
    (hP : (conduct S).Stable t P)
    (hf : ∀ now, (conduct S).Keeps t (fun s => P s ∧ now ≤ s.clock) (f now) Q) :
    (conduct S).Keeps t P ((ask .sharedNow).bind f) Q := by
  refine Keeps.bind (B := fun r s => ∃ now, r = .ok now ∧ P s ∧ now ≤ s.clock)
    (keeps_query hP fun s choice r _ hPs _ hanswer => ?_) (fun now => ?_) fun e s _ h => ?_
  · cases hanswer
    exact ⟨s.clock, rfl, hPs, Int.le_refl _⟩
  · exact (hf now).pre fun s _ h => by
      obtain ⟨_, heq, hmid⟩ := h
      exact Except.ok.inj heq ▸ hmid
  · obtain ⟨_, heq, -⟩ := h
    contradiction

/-! ## the updates -/

section Updates

variable {channelUuid : Text} {instance' : Option ProcessId}

/-- `_cas_buffer_state` comes to an end; where it writes a marker and there is no race it
has won. -/
theorem keeps_casBufferState (hP : (conduct S).Stable t P) {old new : BufferState}
    {triesLeft : Nat} (hupdate : ∀ s, P s → S.Update t channelUuid instance' old new s) :
    (conduct S).Keeps t P (casBufferState channelUuid old new instance' triesLeft)
      (Leaving P fun won => S.Guarded → instance'.isSome → triesLeft = 0 → won = true) := by
  refine Keeps.tryExcept (B := fun r s => P s ∧ (r = .error .response → ¬ S.Guarded) ∧
      (S.Guarded → instance'.isSome → triesLeft = 0 → r ≠ .ok false))
    (keeps_call hP (fun s _ hPs => (hupdate s hPs).1) ?_) (fun won s _ h => ?_) fun e => ?_
  · intro s choice s' r hinv hPs hsupposed hexec hP'
    refine ⟨hP' rfl, fun hr hguarded => ?_, fun hguarded hmarker htries hr => ?_⟩
    · subst hr
      have hscripts := hinv.scripts.trans hguarded.scripts
      simp only [World.exec] at hexec
      split at hexec <;> simp only [World.script, hscripts, if_true, World.redis] at hexec <;>
        split at hexec <;> simp at hexec
    · subst hr htries
      obtain ⟨process, rfl⟩ := Option.isSome_iff_exists.mp hmarker
      have hfound := hguarded.lastCas t s _ _ _ _ _ hsupposed
      simp only [World.exec, hfound, if_true] at hexec
      rcases World.script_eq_some hexec with ⟨-, -, h⟩ | ⟨-, h⟩ | ⟨-, -, h⟩ <;> simp at h
  · refine ⟨h.1, fun hguarded hmarker htries => ?_⟩
    have := h.2.2 hguarded hmarker htries
    cases won with
    | true => rfl
    | false => exact absurd rfl this
  · by_cases he : e = .response
    · subst he
      rw [if_pos rfl]
      intro s hinv h
      have hunguarded := h.2.1 rfl
      refine Keeps.bindLeaving (A := fun _ => True) (keeps_mild hP rfl fun s hinv hPs => ?_)
        (fun _ _ => Keeps.doneLeaving fun _ _ _ => rfl) s hinv h.1
      obtain ⟨hchanges, hchannel, hseen⟩ := hupdate s hPs
      exact ⟨hunguarded, hchanges.continues.channelUuid.trans hchannel,
        hseen.continues hchanges.continues⟩
    · rw [if_neg he]
      exact Keeps.raise fun s _ h => h.1

/-- What an update comes to. -/
def Ends (P : World Thread → Prop) (Q : α → World Thread → Prop) (A : α → Prop) :
    Except Failure α → World Thread → Prop
  | .ok a, s => Q a s ∧ A a
  | .error _, s => P s

/-- What a change to a state comes to: it is one the operation makes, or it is
declined. -/
def Mutated (S : Setting Thread) (t : Thread) (channelUuid : Text)
    (instance' : Option ProcessId) (P D : World Thread → Prop) (old : BufferState) :
    Except Failure (Option BufferState) → World Thread → Prop
  | .ok (some new), s => P s ∧ S.Update t channelUuid instance' old new s
  | .ok none, s => D s
  | .error _, s => P s

/-- **`_update_buffer_state`**: it comes to an end with what each outcome says; where it
writes a marker, without so many races it is not that of the last try. -/
theorem keeps_tryUpdate {mutate : BufferState → Prog Thread (Option BufferState)}
    {Q : Outcome → World Thread → Prop} {R : BufferState → World Thread → Prop}
    (hP : (conduct S).Stable t P)
    (habsent : ∀ s, S.Inv s → P s → s.states.get channelUuid = none → Q .absent s)
    (hfound : ∀ s old, S.Inv s → P s → s.states.get channelUuid = some old → R old s)
    (hmutate : ∀ old, (conduct S).Keeps t (R old) (mutate old)
      (S.Mutated t channelUuid instance' P (Q .declined) old))
    (hwritten : ∀ old new s, P s → S.Update t channelUuid instance' old new s →
      Q (.written new) s)
    (hcontended : ∀ s, P s → Q .contended s) (tries : Nat) :
    (conduct S).Keeps t P (tryUpdate channelUuid mutate instance' tries)
      (Ends P Q fun outcome =>
        S.Guarded → instance'.isSome → 0 < tries → outcome ≠ .contended) := by
  induction tries with
  | zero =>
      exact Keeps.done fun s _ hPs => ⟨hcontended s hPs, fun _ _ h => absurd h (lt_irrefl 0)⟩
  | succ tries ih =>
      refine Keeps.bind (B := fun r s => match r with
          | .ok none => Q .absent s
          | .ok (some old) => R old s
          | .error _ => P s)
        (keeps_query hP fun s choice r hinv hPs _ hanswer => ?_) (fun found => ?_)
        fun e s _ h => h
      · simp only [World.answer] at hanswer
        split at hanswer <;> cases hanswer
        · exact hPs
        · cases hget : s.states.get channelUuid with
          | none => exact habsent s hinv hPs hget
          | some old => exact hfound s old hinv hPs hget
      · cases found with
        | none => exact Keeps.done fun s _ h => ⟨h, by simp⟩
        | some old =>
            refine (hmutate old).bind (fun changed => ?_) fun e s _ h => h
            cases changed with
            | none => exact Keeps.done fun s _ h => ⟨h, by simp⟩
            | some new =>
                refine Keeps.bind (keeps_casBufferState (hP.and stable_update) fun _ h => h.2)
                  (fun won => ?_) fun e s _ h => h.1
                cases won with
                | true => exact Keeps.done fun s _ h => ⟨hwritten old new s h.1.1 h.1.2, by simp⟩
                | false =>
                    intro s hinv h
                    refine (ih s hinv h.1.1).mono fun r s' hr => ?_
                    cases r with
                    | ok outcome =>
                        refine ⟨hr.1, fun hguarded hmarker _ => hr.2 hguarded hmarker ?_⟩
                        have := h.2 hguarded hmarker
                        simp at this
                        omega
                    | error e => exact hr

/-- An update whose thread knows the same before and after. -/
theorem keeps_updateBufferState {mutate : BufferState → Prog Thread (Option BufferState)}
    (hP : (conduct S).Stable t P)
    (hmutate : ∀ old, old.channelUuid = channelUuid →
      (conduct S).Keeps t (fun s => P s ∧ s.Seen old) (mutate old)
        (S.Mutated t channelUuid instance' P P old)) :
    (conduct S).Keeps t P (updateBufferState channelUuid mutate instance')
      (Ends P (fun outcome s => P s ∧ ∀ new, outcome = .written new →
        ∃ old, S.Update t channelUuid instance' old new s)
        fun outcome => S.Guarded → instance'.isSome → outcome ≠ .contended) := by
  refine (keeps_tryUpdate (R := fun old s => (P s ∧ s.Seen old) ∧ old.channelUuid = channelUuid)
    (Q := fun outcome s => P s ∧ ∀ new, outcome = .written new →
      ∃ old, S.Update t channelUuid instance' old new s) hP (fun s _ hPs _ => ⟨hPs, by simp⟩)
    (fun s old hinv hPs hget => ?_) (fun old => ?_) (fun old new s hPs hupdate => ?_)
    (fun s hPs => ⟨hPs, by simp⟩) stateUpdateAttempts).post fun r s hr => ?_
  · obtain ⟨hchannel, hseen⟩ := hinv.tracked _ _ hget
    exact ⟨⟨hPs, hseen⟩, hchannel⟩
  · intro s hinv h
    refine (hmutate old h.2 s hinv h.1).mono fun r s' hr => ?_
    rcases r with e | changed
    · exact hr
    · cases changed with
      | none => exact ⟨hr, by simp⟩
      | some new => exact hr
  · exact ⟨hPs, fun new' hnew' => ⟨old, Outcome.written.inj hnew' ▸ hupdate⟩⟩
  · cases r with
    | ok outcome =>
        exact ⟨hr.1, fun hguarded hmarker => hr.2 hguarded hmarker (by decide)⟩
    | error e => exact hr

end Updates

/-! ## the removals -/

section Removals

variable {state : BufferState}

/-- `_compare_and_delete_buffer_state`: where it has won, there is no state; without a race
under the channel's lock it has. -/
theorem keeps_compareAndDelete {current : BufferState} {triesLeft : Nat} {held : Prop}
    (hP : (conduct S).Stable t P) (hremoving : ∀ s, P s → S.Removing t s state)
    (hheld : held → ∀ s, P s → (s.holding t (.channel state.channelUuid)).isSome)
    (hsame : current.sameBufferInstance state = true) :
    (conduct S).Keeps t P
      (compareAndDeleteBufferState state.channelUuid current state.process triesLeft)
      (Ends P (fun won s => P s ∧ (won = true → s.states.get state.channelUuid = none))
        fun won => S.Guarded → held → triesLeft = 0 → won = true) := by
  refine Keeps.tryExcept (B := fun r s => P s ∧ (r = .error .response → ¬ S.Guarded) ∧
      (r = .ok true → s.states.get state.channelUuid = none) ∧
      (S.Guarded → held → triesLeft = 0 → r ≠ .ok false))
    (keeps_call hP (fun s _ hPs => ⟨state, hremoving s hPs, rfl, rfl, hsame⟩) ?_)
    (fun won s _ h => ?_) fun e => ?_
  · intro s choice s' r hinv hPs hsupposed hexec hP'
    refine ⟨hP' rfl, fun hr hguarded => ?_, fun hr => ?_, fun hguarded hlocked htries hr => ?_⟩
    · subst hr
      have hscripts := hinv.scripts.trans hguarded.scripts
      simp only [World.exec] at hexec
      split at hexec <;> simp only [World.script, hscripts, if_true, World.redis] at hexec <;>
        split at hexec <;> simp at hexec
    · subst hr
      simp only [World.exec] at hexec
      split at hexec
      · rcases World.script_eq_some hexec with ⟨-, rfl, -⟩ | ⟨-, h⟩ | ⟨-, -, h⟩
        · exact World.get_dropState
        · simp at h
        · simp at h
      · rcases World.script_eq_some hexec with ⟨-, -, h⟩ | ⟨-, h⟩ | ⟨-, -, h⟩ <;> simp at h
    · subst hr htries
      have hfound := hguarded.lastCad t s _ _ _ _ hsupposed (hheld hlocked s hPs)
      simp only [World.exec, hfound, if_true] at hexec
      rcases World.script_eq_some hexec with ⟨-, -, h⟩ | ⟨-, h⟩ | ⟨-, -, h⟩ <;> simp at h
  · refine ⟨⟨h.1, fun hwon => h.2.2.1 (congrArg _ hwon)⟩, fun hguarded hlocked htries => ?_⟩
    have := h.2.2.2 hguarded hlocked htries
    cases won with
    | true => rfl
    | false => exact absurd rfl this
  · by_cases he : e = .response
    · subst he
      rw [if_pos rfl]
      intro s hinv h
      have hunguarded := h.2.1 rfl
      refine Keeps.bind (B := fun r s => P s ∧
        (r = .ok () → s.states.get state.channelUuid = none))
        (keeps_call (c := .deleteState _ _) hP
          (fun _ _ _ hguarded => absurd hguarded hunguarded) ?_) (fun _ => Keeps.done fun _ _ h =>
          ⟨⟨h.1, fun _ => h.2 rfl⟩, fun _ _ _ => rfl⟩) (fun _ _ _ h => h.1) s hinv h.1
      intro s choice s' r _ _ _ hexec hP'
      refine ⟨hP' rfl, fun hr => ?_⟩
      subst hr
      rcases World.redis_eq_some hexec with ⟨rfl, -⟩ | ⟨-, h⟩
      · exact World.get_dropState
      · simp at h
    · rw [if_neg he]
      exact Keeps.raise fun s _ h => h.1

/-- **`_delete_buffer_state_if_instance`**: it comes to an end with what each outcome
says. -/
theorem keeps_tryDelete {Q : Deletion → World Thread → Prop} {held : Prop}
    (hP : (conduct S).Stable t P) (hremoving : ∀ s, P s → S.Removing t s state)
    (hheld : held → ∀ s, P s → (s.holding t (.channel state.channelUuid)).isSome)
    (hnone : ∀ s, S.Inv s → P s → s.states.get state.channelUuid = none →
      Q .absent s ∧ Q .deleted s)
    (hreplaced : ∀ s current, S.Inv s → P s →
      s.states.get state.channelUuid = some current →
        current.sameBufferInstance state = false → Q .replaced s)
    (hcontended : ∀ s, P s → Q .contended s) (tries : Nat) :
    (conduct S).Keeps t P (tryDelete state.channelUuid state tries)
      (Ends P Q fun deletion => S.Guarded → held → 0 < tries → deletion ≠ .contended) := by
  induction tries with
  | zero =>
      exact Keeps.done fun s _ hPs => ⟨hcontended s hPs, fun _ _ h => absurd h (lt_irrefl 0)⟩
  | succ tries ih =>
      refine Keeps.bind (B := fun r s => match r with
          | .ok none => Q .absent s
          | .ok (some current) => P s ∧ (current.sameBufferInstance state = false → Q .replaced s)
          | .error _ => P s)
        (keeps_query hP fun s choice r hinv hPs _ hanswer => ?_) (fun found => ?_)
        fun e s _ h => h
      · simp only [World.answer] at hanswer
        split at hanswer <;> cases hanswer
        · exact hPs
        · cases hget : s.states.get state.channelUuid with
          | none => exact (hnone s hinv hPs hget).1
          | some current => exact ⟨hPs, hreplaced s current hinv hPs hget⟩
      · cases found with
        | none => exact Keeps.done fun s _ h => ⟨h, by simp⟩
        | some current =>
            by_cases hsame : current.sameBufferInstance state = true
            · simp only [hsame, not_true_eq_false, if_false]
              refine Keeps.pre (P := P) (Keeps.bind (keeps_compareAndDelete hP hremoving hheld hsame)
                (fun won => ?_) fun e s _ h => h) fun s _ h => h.1
              cases won with
              | true => exact Keeps.done fun s hinv h => ⟨(hnone s hinv h.1.1 (h.1.2 rfl)).2, by simp⟩
              | false =>
                  intro s hinv h
                  refine (ih s hinv h.1.1).mono fun r s' hr => ?_
                  cases r with
                  | ok deletion =>
                      refine ⟨hr.1, fun hguarded hlocked _ => hr.2 hguarded hlocked ?_⟩
                      have := h.2 hguarded hlocked
                      simp at this
                      omega
                  | error e => exact hr
            · simp only [hsame, Bool.false_eq_true, not_false_eq_true, if_true]
              exact Keeps.done fun s _ h => ⟨h.2 trivial, by simp⟩

/-- `_stop_ffmpeg` behind its SIGTERM ends, and the process with it. -/
theorem keeps_awaitExit {process : ProcessId} {instance' : Option ProcessId}
    (hP : (conduct S).Stable t P)
    (hpromise : ∀ s kill, S.Inv s → P s → S.Promise t s (.killpg process instance' kill))
    (polls : Nat) :
    (conduct S).Keeps t P (awaitExit process instance' polls)
      fun r s => P s ∧ s.running process = false ∧ r = .ok () := by
  have hkill : (conduct S).Keeps t P (call (.killpg process instance' true))
      fun r s => P s ∧ s.running process = false ∧ r = .ok () := by
    refine keeps_call hP (fun s hinv hPs => hpromise s true hinv hPs) ?_
    intro s choice s' r _ hPs _ hexec hP'
    refine ⟨hP' rfl, ?_⟩
    simp only [World.exec] at hexec
    split at hexec
    · next hgone =>
        cases hexec
        exact ⟨by simp [World.running, hgone], rfl⟩
    · cases hexec
      exact ⟨by simp [World.running], rfl⟩
  induction polls with
  | zero => exact hkill
  | succ polls ih =>
      refine Keeps.bind (B := fun r s => P s ∧ ∃ a, r = .ok a)
        (keeps_query hP fun s choice r _ hPs _ hanswer => ?_) (fun left => ?_) fun e s _ h => ?_
      · cases hanswer
        exact ⟨hPs, _, rfl⟩
      · refine Keeps.pre (P := P) ?_ fun s _ h => h.1
        cases left with
        | false => exact hkill
        | true =>
            refine Keeps.bind (B := fun r s => P s ∧ ∃ a, r = .ok a ∧ (a = false →
              s.running process = false)) (keeps_query hP fun s choice r _ hPs _ hanswer => ?_)
              (fun alive => ?_) fun e s _ h => ?_
            · cases hanswer
              exact ⟨hPs, _, rfl, fun h => h⟩
            · cases alive with
              | true => exact ih.pre fun s _ h => h.1
              | false =>
                  refine Keeps.done fun s _ h => ⟨h.1, ?_, rfl⟩
                  obtain ⟨_, heq, hdead⟩ := h.2
                  exact hdead (Except.ok.inj heq).symm
            · obtain ⟨_, heq, -⟩ := h.2
              contradiction
      · obtain ⟨_, heq⟩ := h.2
        contradiction

/-- **`_stop_ffmpeg`** ends, and the process with it. -/
theorem keeps_stopFfmpeg {process : ProcessId} {instance' : Option ProcessId}
    (hP : (conduct S).Stable t P)
    (hpromise : ∀ s kill, S.Inv s → P s → S.Promise t s (.killpg process instance' kill)) :
    (conduct S).Keeps t P (stopFfmpeg process instance')
      fun r s => P s ∧ s.running process = false ∧ r = .ok () := by
  refine Keeps.bind (B := fun r s => P s ∧ ∃ a, r = .ok a ∧ (a.any (· ≠ process.2) = true →
    s.running process = false)) (keeps_query hP fun s choice r _ hPs _ hanswer => ?_)
    (fun ticks => ?_) fun e s _ h => ?_
  · cases hanswer
    refine ⟨hPs, _, rfl, fun hother => ?_⟩
    cases hpid : s.processes process.1 with
    | none => simp [hpid] at hother
    | some ticks => simpa [World.running, hpid] using hother
  · by_cases hother : ticks.any (· ≠ process.2) = true
    · simp only [hother, if_true]
      refine Keeps.done fun s _ h => ⟨h.1, ?_, rfl⟩
      obtain ⟨_, heq, hdead⟩ := h.2
      exact hdead (Except.ok.inj heq ▸ hother)
    · simp only [hother]
      refine Keeps.pre (P := P) (Keeps.bind (B := fun r s => P s ∧ r = .ok ())
        (keeps_call hP (fun s hinv hPs => hpromise s false hinv hPs) ?_)
        (fun _ => (keeps_awaitExit hP hpromise stopPolls).pre fun s _ h => h.1)
        fun e s _ h => absurd h.2 (by simp)) fun s _ h => h.1
      intro s choice s' r _ _ _ hexec hP'
      refine ⟨hP' rfl, ?_⟩
      simp only [World.exec] at hexec
      split at hexec <;> cases hexec <;> rfl
  · obtain ⟨_, heq, -⟩ := h.2
    contradiction

end Removals

/-! ## the locks -/

section Locks

variable {name : LockName} {token : LockToken Thread}
  {held : LockName → Option (LockToken Thread)}

/-- A lock is tried for; what is known besides must outlast the taking. -/
theorem keeps_acquire (name : LockName) {K : World Thread → Prop} (hK : (conduct S).Stable t K)
    (hown : ∀ s s', K s → World.Effect t s (.acquireLock name) s' → K s') :
    (conduct S).Keeps t (fun s => Tied t held s ∧ K s) (acquireStartBufferLock name)
      fun r s => match r with
        | .ok (some token) => (Tied t (update held name (some token)) s ∧ K s) ∧
            token.thread = t ∧ ∀ name' token', held name' = some token' → token' ≠ token
        | _ => Tied t held s ∧ K s := by
  refine keeps_call (stable_tied.and hK) (fun _ _ _ => trivial) ?_
  rintro s choice s' r hinv ⟨⟨hunspawned, hheld⟩, hKs⟩ - hexec -
  have hKs' := hown s s' hKs (World.exec_effect hexec)
  simp only [World.exec] at hexec
  split at hexec
  · rcases World.redis_eq_some hexec with ⟨rfl, rfl⟩ | ⟨rfl | rfl, rfl⟩ <;>
      exact ⟨⟨hunspawned, hheld⟩, hKs'⟩
  · split at hexec <;> cases hexec
    · refine ⟨⟨⟨hunspawned, ?_⟩, hKs'⟩, rfl, fun name' token' htoken heq => ?_⟩
      · simp [World.hold, hheld]
      · have := (hinv.holding t name' token' (hheld ▸ htoken)).2
        simp [heq] at this
    · exact ⟨⟨hunspawned, hheld⟩, hKs'⟩
    · exact ⟨⟨hunspawned, hheld⟩, hKs'⟩

/-- A lock is given back, whether Redis hears of it or not. -/
theorem keeps_release {Q : World Thread → Prop} (hP : (conduct S).Stable t P)
    (hQ : (conduct S).Stable t Q) (htoken : token.thread = t)
    (hown : ∀ s, P s → Q (s.hold t name none) ∧ Q ((s.hold t name none).dropLock name)) :
    (conduct S).Keeps t P (releaseStartBufferLock name token) fun _ s => Q s := by
  refine Keeps.tryExcept (B := fun r s => Q s ∧ (r = .error .response → ¬ S.Guarded))
    (keeps_call hP (fun _ _ _ => htoken) ?_) (fun _ s _ h => h.1) fun e => ?_
  · intro s choice s' r hinv hPs _ hexec _
    obtain ⟨hgiven, hdropped⟩ := hown s hPs
    refine ⟨?_, fun hr hguarded => ?_⟩
    · rcases World.script_effect hexec with rfl | rfl
      · exact hgiven
      · split
        · exact hdropped
        · exact hgiven
    · subst hr
      have hscripts := hinv.scripts.trans hguarded.scripts
      simp only [World.exec, World.script, World.hold, hscripts, if_true, World.redis] at hexec
      split at hexec <;> simp at hexec
  · by_cases he : e = .response
    · subst he
      rw [if_pos rfl]
      intro s hinv h
      have hunguarded := h.2 rfl
      have hask : (conduct S).Keeps t Q ((ask (.lock name)).bind fun current =>
          if current = some token then call (.deleteLock name token) else .done ())
          (Leaving Q fun _ => True) := keeps_ask hQ fun current => by
        split
        · exact keeps_mild hQ rfl fun _ _ _ => hunguarded
        · exact Keeps.doneLeaving trivial
      refine (hask s hinv h.1).mono fun r s' hr => ?_
      cases r with
      | ok _ => exact hr.1
      | error _ => exact hr
    · rw [if_neg he]
      exact Keeps.raise fun s _ h => h.1

theorem tied_hold {s : World Thread} {c : Text} (h : Tied t (heldFor c token) s) :
    Tied t unheld (s.hold t (.channel c) none) ∧
      Tied t unheld ((s.hold t (.channel c) none).dropLock (.channel c)) := by
  have hholding : (s.hold t (.channel c) none).holding t = unheld := by
    funext name
    rw [World.holding_hold, h.2]
    by_cases hname : name = .channel c
    · simp [hname, unheld]
    · simp [hname, heldFor, update, unheld]
  exact ⟨⟨h.1, hholding⟩, h.1, hholding⟩

end Locks

/-! ## teardown -/

section Teardown

variable {state : BufferState} {abortIf : AbortIf}

theorem removes_markStopping {op : Op} (h : op.removes state abortIf) (now : Int) :
    op.removes (markStopping state now) abortIf := by
  cases op <;> exact h

/-- The change of a teardown: its marker, or none where it is declined. -/
theorem keeps_markStoppingUnless {R D : World Thread → Prop} {old : BufferState}
    (hremoves : (S.requests t).removes state abortIf)
    (hchannel : old.channelUuid = state.channelUuid) (hR : (conduct S).Stable t R)
    (hRP : ∀ s, R s → P s ∧ s.Seen old ∧ s.Seen state)
    (hD : ∀ s, R s → old.sameBufferInstance state = false ∨ abortIf.holds old = true → D s) :
    (conduct S).Keeps t R (markStoppingUnless state abortIf old)
      (S.Mutated t state.channelUuid (some state.process) P D old) := by
  simp only [markStoppingUnless]
  split
  · next hother => exact Keeps.done fun s _ h => hD s h (.inl (by simpa using hother))
  · next hsame =>
      split
      · next habort => exact Keeps.done fun s _ h => hD s h (.inr habort)
      · next habort =>
          refine keeps_now hR fun now => Keeps.done fun s _ h => ?_
          obtain ⟨hPs, hold, hstate⟩ := hRP s h.1
          exact ⟨hPs, .marks hremoves hstate (by simpa using hsame) (by simpa using habort),
            hchannel, hold⟩

theorem stable_tiedSeen {held : LockName → Option (LockToken Thread)} :
    (conduct S).Stable t fun s => Tied t held s ∧ s.Seen state :=
  stable_tied.and stable_seen

/-- The ffmpeg of a buffer that is removed is stopped. -/
theorem keeps_stopRemoved (hP : (conduct S).Stable t P)
    (hremoving : ∀ s, P s → S.Removing t s state) :
    (conduct S).Keeps t P (stopFfmpeg state.process (some state.process))
      (Leaving P fun _ => True) := by
  have hpromise : ∀ s kill, S.Inv s → P s →
      S.Promise t s (.killpg state.process (some state.process) kill) := fun s _ _ hPs =>
    ⟨rfl, .inl ⟨state, hremoving s hPs, rfl⟩⟩
  refine (keeps_stopFfmpeg hP hpromise).post fun r s h => ?_
  rw [h.2.2]
  exact ⟨h.1, trivial⟩

/-- Its files are moved aside. -/
theorem keeps_removeChannelFiles (hP : (conduct S).Stable t P)
    (hpromise : ∀ s, P s → S.Promise t s (.moveAside (channelDir state) (some state.process))) :
    (conduct S).Keeps t P (removeChannelFiles state) (Leaving P fun _ => True) :=
  (keeps_mild hP rfl fun s _ h => hpromise s h).bindLeaving fun _ _ => Keeps.doneLeaving trivial

/-- And its state is deleted. -/
theorem keeps_deleteState {channelUuid : Text} {instance' : ProcessId} {a : α}
    (hP : (conduct S).Stable t P)
    (hpromise : ∀ s, P s → S.Promise t s (.deleteState channelUuid instance')) :
    (conduct S).Keeps t P
      ((call (.deleteState channelUuid instance')).bind fun _ => .done a)
      (Leaving P fun _ => True) :=
  (keeps_mild hP rfl fun s _ h => hpromise s h).bindLeaving fun _ _ => Keeps.doneLeaving trivial

/-- `_teardown_buffer` behind its marker, under no lock. -/
theorem keeps_removeBuffer {outcome : Outcome}
    (hremoves : (S.requests t).removes state abortIf) (houtcome : outcome ≠ .absent) :
    (conduct S).Keeps t (fun s => Tied t unheld s ∧ s.Seen state) (removeBuffer state outcome)
      (Leaving (fun s => Tied t unheld s ∧ s.Seen state) fun _ => True) := by
  have hremoving : ∀ s : World Thread, Tied t unheld s ∧ s.Seen state → S.Removing t s state :=
    fun s h => ⟨⟨abortIf, hremoves⟩, h.2⟩
  refine (keeps_stopRemoved stable_tiedSeen hremoving).bindLeaving fun _ _ => ?_
  refine Keeps.bindLeaving (A := fun _ => True) ?_ fun _ _ => ?_
  · exact keeps_removeChannelFiles stable_tiedSeen fun s h =>
      .inr ⟨by rw [h.1.2, unheld], state, hremoving s h, rfl, rfl⟩
  · rw [if_neg houtcome]
    refine Keeps.bindLeaving (A := fun _ => True) ?_ fun _ _ => Keeps.doneLeaving trivial
    refine (keeps_tryDelete (Q := fun _ s => Tied t unheld s ∧ s.Seen state) stable_tiedSeen
      hremoving False.elim (fun s _ h _ => ⟨h, h⟩) (fun s _ _ h _ _ => h) (fun s h => h)
      stateUpdateAttempts).post fun r s h => ?_
    cases r with
    | ok _ => exact ⟨h.1, trivial⟩
    | error _ => exact h

/-- `_teardown_untracked_buffer`. -/
theorem keeps_teardownUntrackedBuffer (hremoves : (S.requests t).removes state abortIf) :
    (conduct S).Keeps t (fun s => Tied t unheld s ∧ s.Seen state) (teardownUntrackedBuffer state)
      (Leaving (fun s => Tied t unheld s ∧ s.Seen state) fun _ => True) := by
  refine Keeps.bind (keeps_acquire _ stable_seen fun s s' h heffect => ?_) (fun found => ?_)
    fun e s _ h => h
  · cases heffect <;> exact h
  cases found with
  | none => exact Keeps.done fun s _ h => ⟨h, trivial⟩
  | some token =>
      intro s hinv h
      obtain ⟨hknown, htoken, -⟩ := h
      have hstable : (conduct S).Stable t fun s =>
          (Tied t (heldFor state.channelUuid token) s ∧ s.Seen state) ∧
            S.Under s state.channelUuid token (some state) :=
        stable_tiedSeen.and (stable_under htoken)
      have hremoving : ∀ s : World Thread,
          (Tied t (heldFor state.channelUuid token) s ∧ s.Seen state) ∧
            S.Under s state.channelUuid token (some state) → S.Removing t s state :=
        fun s h => ⟨⟨abortIf, hremoves⟩, h.1.2⟩
      refine Keeps.tryFinally (P := fun s => Tied t (heldFor state.channelUuid token) s ∧
        s.Seen state) (B := fun _ s => Tied t (heldFor state.channelUuid token) s ∧
        s.Seen state) ?_ (fun r => ?_) s hinv hknown
      · refine Keeps.bind (B := fun r s => (Tied t (heldFor state.channelUuid token) s ∧
          s.Seen state) ∧ ∀ current, r = .ok current →
            current.any (fun current => !current.sameBufferInstance state) = false →
              S.Under s state.channelUuid token (some state))
          (keeps_query stable_tiedSeen fun s choice r _ hknown _ hanswer => ?_)
          (fun current => ?_) fun e s _ h => h.1
        · simp only [World.answer] at hanswer
          split at hanswer <;> cases hanswer
          · exact ⟨hknown, by simp⟩
          · refine ⟨hknown, fun current hcurrent hsame _ _ found hfound => ⟨state, rfl, ?_⟩⟩
            rw [← Except.ok.inj hcurrent, hfound] at hsame
            simpa using hsame
        · by_cases hother : current.any (fun current => !current.sameBufferInstance state) = true
          · simp only [hother, if_true]
            exact Keeps.done fun s _ h => h.1
          · simp only [hother]
            refine Keeps.pre (P := fun s =>
              (Tied t (heldFor state.channelUuid token) s ∧ s.Seen state) ∧
                S.Under s state.channelUuid token (some state)) (Keeps.post (Q := Leaving (fun s =>
              (Tied t (heldFor state.channelUuid token) s ∧ s.Seen state) ∧
                S.Under s state.channelUuid token (some state)) fun _ => True) ?_ fun r s h => ?_)
              fun s _ h => ⟨h.1, h.2 current rfl (by simpa using hother)⟩
            · refine (keeps_stopRemoved hstable hremoving).bindLeaving fun _ _ => ?_
              refine Keeps.bindLeaving (A := fun _ => True) ?_ fun _ _ => ?_
              · refine keeps_removeChannelFiles hstable fun s h => ?_
                exact .inl ⟨token, some state, by rw [h.1.1.2]; exact update_self .., h.2, rfl,
                  h.1.1.1, fun A hA => Option.mem_some.mp hA ▸ hremoving s h⟩
              · refine keeps_deleteState hstable fun s h _ => ?_
                exact ⟨state, token, hremoving s h, rfl, rfl, by rw [h.1.1.2]; exact update_self ..,
                  h.2⟩
            · cases r with
              | ok _ => exact h.1.1
              | error _ => exact h.1
      · refine (keeps_release stable_tiedSeen (Q := fun s => Tied t unheld s ∧ s.Seen state)
          stable_tiedSeen htoken fun s h => ?_).post fun r' s h => ?_
        · obtain ⟨hgiven, hdropped⟩ := tied_hold h.1
          exact ⟨⟨hgiven, h.2⟩, hdropped, h.2⟩
        · cases r' with
          | ok _ => cases r with
            | ok _ => exact ⟨h, trivial⟩
            | error _ => exact h
          | error _ => exact h

/-- **`_teardown_buffer`** under no lock. -/
theorem keeps_teardownBuffer (hremoves : (S.requests t).removes state abortIf) :
    (conduct S).Keeps t (fun s => Tied t unheld s ∧ s.Seen state)
      (teardownBuffer state abortIf false)
      (Leaving (fun s => Tied t unheld s ∧ s.Seen state) fun _ => True) := by
  refine Keeps.bind (keeps_updateBufferState stable_tiedSeen fun old hchannel =>
    keeps_markStoppingUnless hremoves hchannel (stable_tiedSeen.and stable_seen)
      (fun s h => ⟨h.1, h.2, h.1.2⟩) fun s h _ => h.1) (fun outcome => ?_) fun e s _ h => h
  intro s hinv h
  obtain ⟨⟨hknown, -⟩, hcontended⟩ := h
  refine Keeps.pre (P := fun s => Tied t unheld s ∧ s.Seen state) (Q := Leaving (fun s =>
    Tied t unheld s ∧ s.Seen state) fun _ => True) ?_ (fun _ _ h => h) s hinv hknown
  split
  · exact Keeps.doneLeaving trivial
  · refine keeps_now stable_tiedSeen fun now => Keeps.pre (P := fun s => Tied t unheld s ∧
      s.Seen (markStopping state now)) ?_ fun s _ h => ⟨h.1.1, World.seen_markStopping.mpr h.1.2⟩
    have hremoves' := removes_markStopping hremoves now
    have hrest : (conduct S).Keeps t
        (fun s => Tied t unheld s ∧ s.Seen (markStopping state now))
        (if outcome = .absent ∧ ¬ false = true then
          teardownUntrackedBuffer (markStopping state now)
        else removeBuffer (markStopping state now) outcome)
        (Leaving (fun s => Tied t unheld s ∧ s.Seen state) fun _ => True) := by
      refine Keeps.post (Q := Leaving (fun s => Tied t unheld s ∧
        s.Seen (markStopping state now)) fun _ => True) ?_ fun r s h => ?_
      · split
        · exact keeps_teardownUntrackedBuffer hremoves'
        · next habsent => exact keeps_removeBuffer hremoves' (by simpa using habsent)
      · cases r with
        | ok _ => exact ⟨⟨h.1.1, World.seen_markStopping.mp h.1.2⟩, trivial⟩
        | error _ => exact ⟨h.1, World.seen_markStopping.mp h.2⟩
    by_cases hmarker : outcome = .contended
    · have hunguarded : ¬ S.Guarded := fun hguarded => hcontended hguarded rfl hmarker
      simp only [hmarker] at hrest ⊢
      refine Keeps.bind (B := Leaving (fun s => Tied t unheld s ∧
        s.Seen (markStopping state now)) fun _ => True)
        (keeps_mild (c := .setState _ _ .marker) stable_tiedSeen rfl fun s _ h =>
          ⟨hunguarded, rfl, h.2⟩) (fun _ => hrest.pre fun s _ h => h.1) fun e s _ h => ?_
      exact ⟨h.1, World.seen_markStopping.mp h.2⟩
    · simp only [hmarker, if_false]
      exact hrest

/-! ### under the channel's lock -/

variable {token : LockToken Thread}

/-- What a thread knows that holds the lock of this buffer's channel. -/
def Keeper (S : Setting Thread) (t : Thread) (token : LockToken Thread) (state : BufferState)
    (s : World Thread) : Prop :=
  (Tied t (heldFor state.channelUuid token) s ∧ s.Seen state) ∧
    S.Under s state.channelUuid token (some state)

theorem stable_keeper (htoken : token.thread = t) : (conduct S).Stable t (S.Keeper t token state) :=
  stable_tiedSeen.and (stable_under htoken)

omit [DecidableEq Thread] in
theorem Keeper.markStopping {s : World Thread} (h : S.Keeper t token state s) (now : Int) :
    S.Keeper t token (TimeshiftBuffer.markStopping state now) s :=
  ⟨⟨h.1.1, World.seen_markStopping.mpr h.1.2⟩, fun horderly hstored found hfound => by
    obtain ⟨A, hA, hsame⟩ := h.2 horderly hstored found hfound
    obtain rfl := Option.mem_some.mp hA
    exact ⟨_, rfl, hsame⟩⟩

/-- `_teardown_buffer` behind its marker, under the channel's lock: no state is left. -/
theorem keeps_removeBufferUnderLock {outcome : Outcome}
    (hremoves : (S.requests t).removes state abortIf) (htoken : token.thread = t) :
    (conduct S).Keeps t
      (fun s => S.Keeper t token state s ∧
        (outcome = .absent → S.Under s state.channelUuid token none))
      (removeBuffer state outcome)
      (Ends (S.Keeper t token state)
        (fun _ s => S.Keeper t token state s ∧ S.Under s state.channelUuid token none)
        fun _ => True) := by
  have hremoving : ∀ s, S.Keeper t token state s → S.Removing t s state := fun s h =>
    ⟨⟨abortIf, hremoves⟩, h.1.2⟩
  have hheld : True → ∀ s, S.Keeper t token state s →
      (s.holding t (.channel state.channelUuid)).isSome := fun _ s h => by
    simp [h.1.1.2, heldFor]
  have hstable : (conduct S).Stable t fun s => S.Keeper t token state s ∧
      (outcome = .absent → S.Under s state.channelUuid token none) := fun s s' h hrely =>
    ⟨stable_keeper htoken s s' h.1 hrely, fun habsent =>
      stable_under htoken s s' (h.2 habsent) hrely⟩
  refine Keeps.bind (keeps_stopRemoved hstable fun s h => hremoving s h.1) (fun _ => ?_)
    fun e s _ h => h.1
  refine Keeps.pre (P := fun s => S.Keeper t token state s ∧
      (outcome = .absent → S.Under s state.channelUuid token none)) ?_ fun s _ h => h.1
  refine Keeps.bind (keeps_removeChannelFiles hstable fun s h => ?_) (fun _ => ?_)
    fun e s _ h => h.1
  · exact .inl ⟨token, some state, by rw [h.1.1.1.2]; exact update_self .., h.1.2, rfl,
      h.1.1.1.1, fun A hA => Option.mem_some.mp hA ▸ hremoving s h.1⟩
  refine Keeps.pre (P := fun s => S.Keeper t token state s ∧
      (outcome = .absent → S.Under s state.channelUuid token none)) ?_ fun s _ h => h.1
  split
  · next habsent =>
      refine (keeps_deleteState hstable fun s h _ => ?_).post fun r s h => ?_
      · exact ⟨state, token, hremoving s h.1, rfl, rfl,
          by rw [h.1.1.1.2]; exact update_self .., h.1.2⟩
      · cases r with
        | ok _ => exact ⟨⟨h.1.1, h.1.2 habsent⟩, trivial⟩
        | error _ => exact h.1
  · refine Keeps.pre (P := S.Keeper t token state) ?_ fun s _ h => h.1
    refine Keeps.bind (keeps_tryDelete (Q := fun deletion s => S.Keeper t token state s ∧
      (deletion ≠ .contended → S.Under s state.channelUuid token none)) (stable_keeper htoken)
      hremoving hheld (fun s _ h hnone => ⟨⟨h, fun _ => .of_none hnone none⟩, h, fun _ =>
        .of_none hnone none⟩) (fun s current _ h hfound hother => ⟨h, fun _ =>
        Under.of_other h.2 hfound hother⟩) (fun s h => ⟨h, fun hne => absurd rfl hne⟩)
      stateUpdateAttempts) (fun deletion => Keeps.done fun s _ h => ?_) fun e s _ h => h
    refine ⟨⟨h.1.1, ?_⟩, trivial⟩
    by_cases hcontended : deletion = .contended
    · exact .of_unguarded (fun hguarded => h.2 hguarded trivial (by decide) hcontended) none
    · exact h.1.2 hcontended

/-- **`_teardown_buffer`** under the channel's lock: no state is left. -/
theorem keeps_teardownUnderLock (hremoves : (S.requests t).removes state .never)
    (htoken : token.thread = t) :
    (conduct S).Keeps t (S.Keeper t token state) (teardownBuffer state .never true)
      (Ends (Tied t (heldFor state.channelUuid token))
        (fun _ s => Tied t (heldFor state.channelUuid token) s ∧
          S.Under s state.channelUuid token none) fun _ => True) := by
  refine Keeps.bind (keeps_tryUpdate
    (R := fun old s => ((S.Keeper t token state s ∧ s.Seen old) ∧
      (old.sameBufferInstance state = false → S.Under s state.channelUuid token none)) ∧
        old.channelUuid = state.channelUuid)
    (Q := fun outcome s => S.Keeper t token state s ∧
      (outcome = .absent ∨ outcome = .declined → S.Under s state.channelUuid token none))
    (stable_keeper htoken) (fun s _ h hnone => ⟨h, fun _ => .of_none hnone none⟩)
    (fun s old hinv h hfound => ?_) (fun old => ?_) (fun old new s h _ => ⟨h, by simp⟩)
    (fun s h => ⟨h, by simp⟩) stateUpdateAttempts) (fun outcome => ?_) fun e s _ h => h.1.1
  · obtain ⟨hchannel, hseen⟩ := hinv.tracked _ _ hfound
    exact ⟨⟨⟨h, hseen⟩, fun hother => Under.of_other h.2 hfound hother⟩, hchannel⟩
  · intro s hinv h
    have hstable : (conduct S).Stable t fun s => (S.Keeper t token state s ∧ s.Seen old) ∧
        (old.sameBufferInstance state = false → S.Under s state.channelUuid token none) :=
      fun s s' h hrely => ⟨((stable_keeper htoken).and stable_seen) s s' h.1 hrely,
        fun hother => stable_under htoken s s' (h.2 hother) hrely⟩
    exact keeps_markStoppingUnless hremoves h.2 hstable (fun s h => ⟨h.1.1, h.1.2, h.1.1.1.2⟩)
      (fun s h hwhy => ⟨h.1.1, fun _ => h.2 (hwhy.resolve_right (by simp [AbortIf.holds]))⟩)
      s hinv h.1
  · intro s hinv h
    obtain ⟨hknown, hcontended⟩ := h
    have hcontended : S.Guarded → outcome ≠ .contended := fun hguarded =>
      hcontended hguarded rfl (by decide)
    have hstable : (conduct S).Stable t fun s => S.Keeper t token state s ∧
        (outcome = .absent ∨ outcome = .declined → S.Under s state.channelUuid token none) :=
      fun s s' h hrely => ⟨stable_keeper htoken s s' h.1 hrely, fun hwhy =>
        stable_under htoken s s' (h.2 hwhy) hrely⟩
    refine Keeps.pre (P := fun s => S.Keeper t token state s ∧
      (outcome = .absent ∨ outcome = .declined → S.Under s state.channelUuid token none))
      ?_ (fun _ _ h => h) s hinv hknown
    split
    · next hdeclined =>
        exact Keeps.done fun s _ h => ⟨⟨h.1.1.1, h.2 (.inr hdeclined)⟩, trivial⟩
    refine keeps_now hstable fun now => Keeps.pre (P := fun s =>
      S.Keeper t token (markStopping state now) s ∧
        (outcome = .absent → S.Under s state.channelUuid token none)) ?_ fun s _ h =>
          ⟨h.1.1.markStopping now, fun habsent => h.1.2 (.inl habsent)⟩
    have hrest : (conduct S).Keeps t
        (fun s => S.Keeper t token (markStopping state now) s ∧
          (outcome = .absent → S.Under s state.channelUuid token none))
        (removeBuffer (markStopping state now) outcome)
        (Ends (Tied t (heldFor state.channelUuid token))
          (fun _ s => Tied t (heldFor state.channelUuid token) s ∧
            S.Under s state.channelUuid token none) fun _ => True) := by
      refine (keeps_removeBufferUnderLock (removes_markStopping hremoves now) htoken).post
        fun r s h => ?_
      cases r with
      | ok _ => exact ⟨⟨h.1.1.1.1, h.1.2⟩, trivial⟩
      | error _ => exact h.1.1
    have hstable' : (conduct S).Stable t fun s => S.Keeper t token (markStopping state now) s ∧
        (outcome = .absent → S.Under s state.channelUuid token none) := fun s s' h hrely =>
      ⟨stable_keeper htoken s s' h.1 hrely, fun hwhy => stable_under htoken s s' (h.2 hwhy) hrely⟩
    by_cases hmarker : outcome = .contended
    · have hunguarded : ¬ S.Guarded := fun hguarded => hcontended hguarded hmarker
      simp only [hmarker] at hrest hstable' ⊢
      exact Keeps.bind (keeps_mild (c := .setState _ _ .marker) hstable' rfl fun s _ h =>
        ⟨hunguarded, rfl, h.1.1.2⟩) (fun _ => hrest.pre fun s _ h => h.1) fun e s _ h => h.1.1.1
    · simp only [hmarker, not_true_eq_false, and_false, if_false]
      exact hrest

end Teardown

/-! ## what is cleared under the channel's lock -/

section Clearing

variable {path : DirPath} {token : LockToken Thread}

/-- The state of the channel: the thread holds its lock, and finds no state. -/
def Clearing (S : Setting Thread) (t : Thread) (path : DirPath) (token : LockToken Thread)
    (s : World Thread) : Prop :=
  s.holding t (.channel path.2) = some token ∧ S.Under s path.2 token none ∧ s.Unspawned t

/-- `_live_owner` never fails; whom it finds was spawned there. -/
theorem keeps_liveOwner (hP : (conduct S).Stable t P) :
    (conduct S).Keeps t P (liveOwner path) fun r s =>
      P s ∧ ∃ found, r = .ok found ∧ ∀ owner ∈ found, s.SpawnedAt owner path := by
  have hspawned : ∀ owner, (conduct S).Stable t fun s => P s ∧ World.SpawnedAt s owner path :=
    fun owner => hP.and fun _ _ h hrely => h.mono hrely.spawned
  refine Keeps.bind (B := fun r s => P s ∧ ∃ found, r = .ok found ∧
    ∀ owner ∈ found, s.SpawnedAt owner path) (keeps_query hP fun s choice r hinv hPs _ hanswer => ?_)
    (fun found => ?_) fun e s _ h => ?_
  · cases hanswer
    refine ⟨hPs, _, rfl, fun owner howner => ?_⟩
    obtain ⟨dir, hdir, hown⟩ := Option.bind_eq_some_iff.mp howner
    exact hinv.dirs path dir hdir owner (.inl hown)
  · cases found with
    | none => exact Keeps.done fun s _ h => ⟨h.1, none, rfl, by simp⟩
    | some owner =>
        refine Keeps.pre (P := fun s => P s ∧ s.SpawnedAt owner path) ?_ fun s _ h => ?_
        · refine Keeps.bind (B := fun r s => (P s ∧ s.SpawnedAt owner path) ∧ ∃ alive, r = .ok alive)
            (keeps_query (hspawned owner) fun s choice r _ h _ hanswer => ?_) (fun alive => ?_)
            fun e s _ h => absurd h.2 (by simp)
          · cases hanswer
            exact ⟨h, _, rfl⟩
          · split
            · exact Keeps.done fun s _ h => ⟨h.1.1, _, rfl, by simpa using h.1.2⟩
            · exact Keeps.done fun s _ h => ⟨h.1.1, none, rfl, by simp⟩
        · obtain ⟨hPs, _, heq, howner⟩ := h
          exact ⟨hPs, howner owner (Except.ok.inj heq ▸ rfl)⟩
  · obtain ⟨-, _, heq, -⟩ := h
    contradiction

/-- `_reap_untracked_ffmpeg`. -/
theorem keeps_reapUntrackedFfmpeg (hP : (conduct S).Stable t P)
    (hclearing : ∀ s, P s → S.Clearing t path token s) :
    (conduct S).Keeps t P (reapUntrackedFfmpeg path) (Leaving P fun _ => True) := by
  refine (keeps_liveOwner hP).bind (fun found => ?_) fun e s _ h => h.1
  cases found with
  | none => exact Keeps.done fun s _ h => ⟨h.1, trivial⟩
  | some owner =>
      have hstable : (conduct S).Stable t fun s => P s ∧ World.SpawnedAt s owner path :=
        hP.and fun _ _ h hrely => h.mono hrely.spawned
      have hpromise : ∀ s kill, S.Inv s → (P s ∧ s.SpawnedAt owner path) →
          S.Promise t s (.killpg owner none kill) := fun s _ _ h => by
        obtain ⟨hholding, hunder, hunspawned⟩ := hclearing s h.1
        exact ⟨path, token, hholding, hunder, hunspawned, h.2⟩
      refine Keeps.pre (P := fun s => P s ∧ s.SpawnedAt owner path) ?_ fun s _ h => ?_
      · exact (keeps_stopFfmpeg hstable hpromise).bind (fun _ => Keeps.done fun s _ h =>
          ⟨h.1.1, trivial⟩) fun e s _ h => h.1.1
      · obtain ⟨hPs, _, heq, howner⟩ := h
        exact ⟨hPs, howner owner (Except.ok.inj heq ▸ rfl)⟩

/-- `_clear_channel_dir`. -/
theorem keeps_clearChannelDir (hP : (conduct S).Stable t P)
    (hclearing : ∀ s, P s → S.Clearing t path token s) :
    (conduct S).Keeps t P (clearChannelDir path) (Leaving P fun _ => True) := by
  have hpromise : ∀ s, S.Inv s → P s → S.Promise t s (.moveAside path none) := fun s _ h => by
    obtain ⟨hholding, hunder, hunspawned⟩ := hclearing s h
    exact .inl ⟨token, none, hholding, hunder, rfl, hunspawned, by simp⟩
  exact (keeps_mild hP rfl hpromise).bindLeaving fun _ _ => Keeps.doneLeaving trivial

/-- `_is_untracked_orphan`: the channel had no state. -/
theorem keeps_isUntrackedOrphan (path : DirPath) (hP : (conduct S).Stable t P)
    (htoken : token.thread = t) :
    (conduct S).Keeps t P (isUntrackedOrphan path)
      (Ends P (fun orphan s => P s ∧ (orphan = true → S.Under s path.2 token none))
        fun _ => True) := by
  have hstable : (conduct S).Stable t fun s => P s ∧ S.Under s path.2 token none :=
    hP.and (stable_under htoken)
  refine Keeps.bind (B := fun r s => P s ∧ (r = .ok none → S.Under s path.2 token none))
    (keeps_query hP fun s choice r _ hPs _ hanswer => ?_) (fun found => ?_) fun e s _ h => h.1
  · simp only [World.answer] at hanswer
    split at hanswer <;> cases hanswer
    · exact ⟨hPs, by simp⟩
    · exact ⟨hPs, fun hnone => .of_none (Except.ok.inj hnone) none⟩
  · cases found with
    | some state => exact Keeps.done fun s _ h => ⟨⟨h.1, by simp⟩, trivial⟩
    | none =>
        refine Keeps.pre (P := fun s => P s ∧ S.Under s path.2 token none) (Keeps.post
          (Q := Leaving (fun s => P s ∧ S.Under s path.2 token none) fun _ => True) ?_
          fun r s h => ?_) fun s _ h => ⟨h.1, h.2 rfl⟩
        · refine keeps_ask hstable fun old => ?_
          cases old with
          | none => exact Keeps.doneLeaving trivial
          | some old =>
              refine Keeps.bindLeaving (A := fun _ => True) ((keeps_liveOwner hstable).post
                fun r s h => ?_) fun owner _ => ?_
              · cases r with
                | ok _ => exact ⟨h.1, trivial⟩
                | error _ => exact h.1
              · cases owner with
                | none => exact Keeps.doneLeaving trivial
                | some owner => exact keeps_mild hstable rfl fun _ _ _ => trivial
        · cases r with
          | ok _ => exact ⟨⟨h.1.1, fun _ => h.1.2⟩, trivial⟩
          | error _ => exact h.1

end Clearing

end Setting

end TimeshiftBuffer

end DispatcharrPvr
