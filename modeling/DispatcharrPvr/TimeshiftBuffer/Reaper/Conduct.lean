import DispatcharrPvr.TimeshiftBuffer.Effects
import DispatcharrPvr.TimeshiftBuffer.Reaper

/-!
# TimeshiftBuffer.Reaper.Conduct

What a reaper has seen twice, what holds of the reapers throughout, and what each
promises of the commands it calls.

A tracker's entry is backed by a sighting in the reaper's present term; a tick
looks at each key once, so an entry that it finds is an earlier tick's.
-/

namespace DispatcharrPvr

namespace TimeshiftBuffer

open Interleaving Interleaving.Program Interleaving.Discipline Runs

variable {Thread : Type}

/-! ## what is fair -/

/-- A reaper's sighting of a value. -/
def Sighting.Of (o : Sighting Thread) (t : Thread) (key : TrackerKey) (value : Int) : Prop :=
  o.reaper = t ∧ o.key = key ∧ o.value = value

namespace ReaperWorld

/-- The reaper has seen the value at two of its ticks, the second of them its present one,
more than its `idle_timeout` apart.  Both ticks' elections have found the leader's key its
own, in one term, and it was its own still when the value was first seen. -/
def SeenTwice (s : ReaperWorld Thread) (t : Thread) (key : TrackerKey) (value : Int) : Prop :=
  ∃ first ∈ s.sightings, ∃ second ∈ s.sightings,
    first.Of t key value ∧ second.Of t key value ∧ first.tick < second.tick ∧
      second.tick = (s.reapers t).tick ∧
      seconds (s.reapers t).idleTimeout < second.time - first.time ∧
      first.term.isSome = true ∧ second.term = first.term ∧ first.leads = true

/-- The buffer is idle, and its state had that heartbeat still when the reaper's tick
wrote the marker; or the tick has found no state. -/
def Decided (s : ReaperWorld Thread) (t : Thread) (state : BufferState) : Prop :=
  s.SeenTwice t (state.channelUuid, none) state.lastHeartbeat ∧
    ((t, (s.reapers t).tick, state.channelUuid, state.lastHeartbeat) ∈ s.marked ∨
      (t, (s.reapers t).tick, state.channelUuid) ∈ s.missed)

/-- What a reaper may write over a state: the viewers it drops have been idle, and if it
marks the buffer, the buffer has. -/
structure FairWrite (s : ReaperWorld Thread) (t : Thread) (channelUuid : Text)
    (old new : BufferState) : Prop where
  channel : new.channelUuid = old.channelUuid
  viewers : new.viewers.Sublist old.viewers
  pruned : ∀ viewerId ∈ old.viewers, viewerId ∉ new.viewers →
    ∃ value, old.viewerHeartbeats.get viewerId = some value ∧
      s.SeenTwice t (channelUuid, some viewerId) value
  marked : (new.stopping, new.stoppingSince) ≠ (old.stopping, old.stoppingSince) →
    s.SeenTwice t (channelUuid, none) old.lastHeartbeat

end ReaperWorld

/-- A step of this buffer's removal. -/
def Cmd.Removes (state : BufferState) : Cmd Thread → Prop
  | .killpg _ (some process) _ => process = state.process
  | .moveAside path (some process) => process = state.process ∧ path = channelDir state
  | .cadState channelUuid _ process _ => channelUuid = state.channelUuid ∧ process = state.process
  | .deleteState channelUuid process => channelUuid = state.channelUuid ∧ process = state.process
  | _ => False

/-- The commands that are about no buffer's state, its process or its files. -/
def Cmd.harmless : Cmd Thread → Bool
  | .setState .. | .casState .. | .cadState .. | .deleteState .. | .idle .. => false
  | .moveAside _ instance' | .killpg _ instance' _ => instance'.isNone
  | _ => true

/-! ## what reapers rely on and promise -/

namespace ReaperWorld

/-- What a reaper keeps is backed by what it has seen: each value it remembers it has
seen in one term, the last that it was elected in, while it led where that was before the
present tick; and the present tick's keys are its `seen_keys`. -/
structure Backed (sightings : List (Sighting Thread)) (t : Thread) (me : ReaperState)
    (term : Nat) : Prop where
  remembered : ∀ e ∈ me.tracker, ∃ o ∈ sightings,
    o.reaper = t ∧ o.term = some term ∧ o.key = e.1 ∧ o.value = e.2.1 ∧ o.time = e.2.2
  ticks : ∀ o ∈ sightings, o.reaper = t →
    o.tick ≤ me.tick ∧ (o.tick = me.tick → o.key ∈ me.seenKeys)
  elected : ∀ m, me.elected = some m → m = term
  led : me.elected.isSome = true → ∀ o ∈ sightings, o.reaper = t → o.term = some term →
    o.tick < me.tick → o.leads = true

/-- The terms go up: none that is known of is to come, and whoever leads has led whenever it
has seen something in the present one. -/
structure Termed (s : ReaperWorld Thread) : Prop where
  elected_le : ∀ t m, (s.reapers t).elected = some m → m ≤ s.term
  sighted_le : ∀ o ∈ s.sightings, ∀ m, o.term = some m → m ≤ s.term
  led : ∀ o ∈ s.sightings, o.term = some s.term → s.leader = some o.reaper → o.leads = true

/-- What holds throughout. -/
structure Inv (s : ReaperWorld Thread) : Prop where
  scripts : s.shared.scripts = true
  listed : ∀ channelUuid state, s.shared.states.get channelUuid = some state →
    WellListed channelUuid state
  backed : ∀ t, ∃ term, Backed s.sightings t (s.reapers t) term ∧
    (s.leader = some t → s.term = term)
  termed : s.Termed

/-- What the others keep: all that a reaper keeps for itself, and what is noted. -/
structure Later (t : Thread) (s s' : ReaperWorld Thread) : Prop where
  own : s'.reapers t = s.reapers t
  sightings : ∀ o ∈ s.sightings, o ∈ s'.sightings
  marked : ∀ e ∈ s.marked, e ∈ s'.marked
  missed : ∀ e ∈ s.missed, e ∈ s'.missed

theorem Later.refl (t : Thread) (s : ReaperWorld Thread) : Later t s s :=
  ⟨rfl, fun _ h => h, fun _ h => h, fun _ h => h⟩

theorem Later.trans {t : Thread} {s s' s'' : ReaperWorld Thread} (h : Later t s s')
    (h' : Later t s' s'') : Later t s s'' :=
  ⟨h'.own.trans h.own, fun o ho => h'.sightings o (h.sightings o ho),
    fun e he => h'.marked e (h.marked e he), fun e he => h'.missed e (h.missed e he)⟩

/-- What a reaper promises of a command. -/
def Promise (t : Thread) (s : ReaperWorld Thread) : ReaperCmd Thread → Prop
  | .plugin (.setState ..) => False
  | .plugin (.casState channelUuid expected new _ _) => s.FairWrite t channelUuid expected new
  | .plugin (.idle ..) => True
  | .plugin c => c.harmless = true ∨ ∃ state, c.Removes state ∧ s.Decided t state
  | _ => True

/-- No update of a reaper's loses its last try. -/
def Undisputed (_ : Thread) (s : ReaperWorld Thread) : ReaperCmd Thread → ReaperChoice → Prop
  | .plugin (.casState channelUuid expected _ _ 0), _ =>
      s.shared.states.get channelUuid = some expected
  | _, _ => True

/-- A `SET NX` that takes effect is that of a reaper which remembers nothing. -/
def TermsAnew (t : Thread) (s : ReaperWorld Thread) : ReaperCmd Thread → ReaperChoice → Prop
  | .setLeader, choice =>
      s.leader = none → choice.failure ≠ some false → (s.reapers t).tracker = []
  | _, _ => True

variable [DecidableEq Thread]

/-- How the reapers conduct themselves. -/
def fairness (ticks : Thread → Nat) : Discipline (reaperLoops ticks) where
  inv := Inv
  rely := Later
  allowed t s c choice := Undisputed t s c choice ∧ TermsAnew t s c choice
  allowedEnv := fun _ _ => True
  promise := Promise
  rely_refl := Later.refl
  rely_trans := Later.trans

/-! ## steps -/

section Steps

variable {s s' : ReaperWorld Thread} {t : Thread}

omit [DecidableEq Thread] in
/-- What has been seen twice stays so for the rest of the tick. -/
theorem SeenTwice.still {key : TrackerKey} {value : Int} (h : s.SeenTwice t key value)
    (htick : (s'.reapers t).tick = (s.reapers t).tick)
    (htimeout : (s'.reapers t).idleTimeout = (s.reapers t).idleTimeout)
    (hsightings : ∀ o ∈ s.sightings, o ∈ s'.sightings) : s'.SeenTwice t key value := by
  obtain ⟨first, hfirst, second, hsecond, h⟩ := h
  refine ⟨first, hsightings _ hfirst, second, hsightings _ hsecond, ?_⟩
  rw [htick, htimeout]
  exact h

omit [DecidableEq Thread] in
theorem SeenTwice.later {key : TrackerKey} {value : Int} (h : s.SeenTwice t key value)
    (hlater : Later t s s') : s'.SeenTwice t key value :=
  h.still (by rw [hlater.own]) (by rw [hlater.own]) hlater.sightings

omit [DecidableEq Thread] in
theorem Decided.later {state : BufferState} (h : s.Decided t state) (hlater : Later t s s') :
    s'.Decided t state := by
  refine ⟨h.1.later hlater, ?_⟩
  rw [hlater.own]
  exact h.2.imp (hlater.marked _) (hlater.missed _)

omit [DecidableEq Thread] in
theorem FairWrite.later {channelUuid : Text} {old new : BufferState}
    (h : s.FairWrite t channelUuid old new) (hlater : Later t s s') :
    s'.FairWrite t channelUuid old new where
  channel := h.channel
  viewers := h.viewers
  pruned viewerId hold hnew := by
    obtain ⟨value, hvalue, hseen⟩ := h.pruned viewerId hold hnew
    exact ⟨value, hvalue, hseen.later hlater⟩
  marked hne := (h.marked hne).later hlater

section Backed

variable {sightings : List (Sighting Thread)} {me : ReaperState} {term : Nat}
  {o : Sighting Thread}

omit [DecidableEq Thread] in
theorem Backed.others (h : Backed sightings t me term) (hother : o.reaper ≠ t) :
    Backed (o :: sightings) t me term where
  remembered e he := by
    obtain ⟨o', ho', hbacks⟩ := h.remembered e he
    exact ⟨o', List.mem_cons_of_mem _ ho', hbacks⟩
  ticks o' ho' ht := by
    rcases List.mem_cons.mp ho' with rfl | ho'
    · exact absurd ht hother
    · exact h.ticks o' ho' ht
  elected := h.elected
  led hsome o' ho' ht := by
    rcases List.mem_cons.mp ho' with rfl | ho'
    · exact absurd ht hother
    · exact h.led hsome o' ho' ht

omit [DecidableEq Thread] in
/-- What the tracker has looked at is seen. -/
theorem Backed.age (h : Backed sightings t me term) (helected : me.elected.isSome = true)
    (key : TrackerKey) (value now : Int) (leads : Bool) :
    Backed
      ({ reaper := t, tick := me.tick, term := me.elected, key, value, time := now, leads } ::
        sightings)
      t
      { me with
        tracker := (me.tracker.age now key value).2
        seenKeys := key :: me.seenKeys } term where
  remembered e he := by
    rcases IdleTracker.mem_age he with he | rfl
    · obtain ⟨o', ho', hbacks⟩ := h.remembered e he
      exact ⟨o', List.mem_cons_of_mem _ ho', hbacks⟩
    · obtain ⟨m, hm⟩ := Option.isSome_iff_exists.mp helected
      exact ⟨_, List.mem_cons_self, rfl, hm.trans (congrArg some (h.elected m hm)), rfl, rfl, rfl⟩
  ticks o' ho' ht := by
    rcases List.mem_cons.mp ho' with rfl | ho'
    · exact ⟨Nat.le_refl _, fun _ => List.mem_cons_self⟩
    · obtain ⟨hle, hseen⟩ := h.ticks o' ho' ht
      exact ⟨hle, fun htick => List.mem_cons_of_mem _ (hseen htick)⟩
  elected := h.elected
  led hsome o' ho' ht hterm htick := by
    rcases List.mem_cons.mp ho' with rfl | ho'
    · exact absurd htick (Nat.lt_irrefl _)
    · exact h.led hsome o' ho' ht hterm htick

omit [DecidableEq Thread] in
/-- A value with an age, of a key that the tick has not looked at, was seen then, at an
earlier tick of the term, by the leader. -/
theorem Backed.of_age_pos (h : Backed sightings t me term) (helected : me.elected.isSome = true)
    {key : TrackerKey} {value now : Int} (hunaged : key ∉ me.seenKeys)
    (hage : 0 < (me.tracker.age now key value).1) :
    ∃ o ∈ sightings, o.Of t key value ∧ o.term = me.elected ∧ o.leads = true ∧
      o.tick < me.tick ∧ now - o.time = (me.tracker.age now key value).1 := by
  obtain ⟨o, ho, hreaper, hterm, hkey, hvalue, htime⟩ :=
    h.remembered _ (IdleTracker.mem_of_age_pos hage)
  dsimp only at hkey hvalue htime
  obtain ⟨hle, hseen⟩ := h.ticks o ho hreaper
  have htick : o.tick < me.tick :=
    lt_of_le_of_ne hle fun htick => hunaged (hkey ▸ hseen htick)
  obtain ⟨m, hm⟩ := Option.isSome_iff_exists.mp helected
  refine ⟨o, ho, ⟨hreaper, hkey, hvalue⟩, ?_, h.led helected o ho hreaper hterm htick, htick,
    by omega⟩
  rw [hterm, hm, h.elected m hm]

end Backed

omit [DecidableEq Thread] in
/-- The terms are those of the leader's key and of what the reapers have seen. -/
theorem Termed.later (h : s.Termed) (hreapers : s'.reapers = s.reapers)
    (hsightings : s'.sightings = s.sightings) (hleader : s'.leader = s.leader)
    (hterm : s'.term = s.term) : s'.Termed :=
  ⟨by rw [hreapers, hterm]; exact h.elected_le, by rw [hsightings, hterm]; exact h.sighted_le,
    by rw [hsightings, hterm, hleader]; exact h.led⟩

omit [DecidableEq Thread] in
/-- One more sighting. -/
theorem Termed.sight (h : s.Termed) {o : Sighting Thread}
    (hterm : ∀ m, o.term = some m → m ≤ s.term)
    (hleads : s.leader = some o.reaper → o.leads = true) :
    Termed { s with sightings := o :: s.sightings } where
  elected_le := h.elected_le
  sighted_le o' ho' := by
    rcases List.mem_cons.mp ho' with rfl | ho'
    · exact hterm
    · exact h.sighted_le o' ho'
  led o' ho' hpresent hleader := by
    rcases List.mem_cons.mp ho' with rfl | ho'
    · exact hleads hleader
    · exact h.led o' ho' hpresent hleader

theorem Termed.setReaper (h : s.Termed) {me : ReaperState}
    (hme : ∀ m, me.elected = some m → m ≤ s.term) : (s.setReaper t me).Termed where
  elected_le t' m hm := by
    by_cases ht : t' = t
    · subst ht
      exact hme m (by simpa [ReaperWorld.setReaper] using hm)
    · exact h.elected_le t' m (by simpa [ReaperWorld.setReaper, update_of_ne _ _ ht] using hm)
  sighted_le := h.sighted_le
  led := h.led

/-- What a reaper keeps replaced by something that is backed. -/
theorem Inv.setReaper (h : Inv s) {me : ReaperState} {term : Nat}
    (hme : Backed s.sightings t me term) (hterm : s.leader = some t → s.term = term)
    (hle : ∀ m, me.elected = some m → m ≤ s.term) : Inv (s.setReaper t me) :=
  { scripts := h.scripts
    listed := h.listed
    termed := h.termed.setReaper hle
    backed := fun t' => by
      by_cases ht : t' = t
      · subst ht
        exact ⟨term, by simpa [ReaperWorld.setReaper] using hme, hterm⟩
      · simpa [ReaperWorld.setReaper, update_of_ne _ _ ht] using h.backed t' }

/-- What a step of the plugin's leaves of the states is well listed. -/
theorem Inv.plugin (h : Inv s) {c : Cmd Thread} {w : World Thread}
    (hpromise : Promise t s (.plugin c)) (heffect : World.Effect t s.shared c w) :
    Inv { s with shared := w } := by
  have hsame : w.scripts = s.shared.scripts → w.states = s.shared.states →
      Inv { s with shared := w } := fun hscripts hstates =>
    { scripts := hscripts.trans h.scripts, listed := by rw [hstates]; exact h.listed,
      backed := h.backed, termed := h.termed.later rfl rfl rfl rfl }
  have herased : ∀ channel, w.scripts = s.shared.scripts →
      w.states = s.shared.states.erase channel → Inv { s with shared := w } :=
    fun channel hscripts hstates =>
      { scripts := hscripts.trans h.scripts
        listed := fun channel' state hstate => by
          simp only [hstates, Dict.get_erase] at hstate
          split at hstate
          · contradiction
          · exact h.listed channel' state hstate
        backed := h.backed
        termed := h.termed.later rfl rfl rfl rfl }
  cases heffect with
  | registered => exact hpromise.elim
  | stored => exact hpromise.elim
  | compared hfound =>
      next channel expected new instance' triesLeft =>
        have hfair : s.FairWrite t channel expected new := hpromise
        obtain ⟨hchannel, hnodup⟩ := h.listed _ _ hfound
        refine { h with
          listed := fun channel' state hstate => ?_
          termed := h.termed.later rfl rfl rfl rfl }
        simp only [World.putState, World.harmState, World.harm, Dict.get_set] at hstate
        split at hstate
        · next heq =>
            obtain rfl := Option.some.inj hstate
            exact ⟨(hfair.channel.trans hchannel).trans heq.symm,
              hfair.viewers.nodup hnodup⟩
        · exact h.listed channel' state hstate
  | comparedAndDeleted => exact herased _ rfl rfl
  | deleted => exact herased _ rfl rfl
  | _ => exact hsame rfl rfl

theorem setReaper_self (s : ReaperWorld Thread) (t : Thread) : s.setReaper t (s.reapers t) = s := by
  have hsame : update s.reapers t (s.reapers t) = s.reapers := by
    funext t'
    by_cases h : t' = t
    · rw [h, update_self]
    · exact update_of_ne _ _ h
  rw [setReaper, hsame]

omit [DecidableEq Thread] in
theorem noted_shared {w : World Thread} {c : Cmd Thread} {r : Except Failure c.Answer} :
    (s.noted t w c r).shared = w ∧ (s.noted t w c r).reapers = s.reapers ∧
      (s.noted t w c r).sightings = s.sightings ∧ (s.noted t w c r).leader = s.leader ∧
        (s.noted t w c r).term = s.term := by
  unfold noted
  split <;> exact ⟨rfl, rfl, rfl, rfl, rfl⟩

omit [DecidableEq Thread] in
theorem later_noted {w : World Thread} {c : Cmd Thread} {r : Except Failure c.Answer}
    (t' : Thread) : Later t' s (s.noted t w c r) := by
  unfold noted
  split
  · exact ⟨rfl, fun _ h => h, fun _ h => List.mem_cons_of_mem _ h, fun _ h => h⟩
  · exact ⟨rfl, fun _ h => h, fun _ h => h, fun _ h => List.mem_cons_of_mem _ h⟩
  · exact ⟨rfl, fun _ h => h, fun _ h => h, fun _ h => h⟩

/-- A step of the plugin's but the tracker's. -/
theorem exec_plugin {c : Cmd Thread} {choice : ReaperChoice} {r : Except Failure c.Answer}
    (hidle : ∀ channelUuid viewerId seen, c ≠ .idle channelUuid viewerId seen)
    (h : s.exec t (.plugin c) choice = some (s', r)) :
    ∃ w, s.shared.exec t c choice.toChoice = some (w, r) ∧ s' = s.noted t w c r := by
  have hexec : s.exec t (.plugin c) choice =
      (s.shared.exec t c choice.toChoice).map fun p => (s.noted t p.1 c p.2, p.2) := by
    cases c <;> first | rfl | exact absurd rfl (hidle _ _ _)
  obtain ⟨⟨w, r'⟩, hw, heq⟩ := Option.map_eq_some_iff.mp (hexec ▸ h)
  cases heq
  exact ⟨w, hw, rfl⟩

/-- What a step of a reaper leaves: one look by the tracker more, what a step of the
plugin's leaves, or nothing but its own and, at an election, a new term. -/
theorem exec_cases {c : ReaperCmd Thread} {choice : ReaperChoice} {r : Except Failure c.Answer}
    (h : s.exec t c choice = some (s', r)) :
    (∃ channelUuid viewerId seen w me o, c = .plugin (.idle channelUuid viewerId seen) ∧
      World.Effect t s.shared (.idle channelUuid viewerId seen) w ∧
      o.leads = decide (s.leader = some t) ∧
      s' = { s.setReaper t me with shared := w, sightings := o :: s.sightings }) ∨
    (∃ cmd w r', c = .plugin cmd ∧ World.Effect t s.shared cmd w ∧ s' = s.noted t w cmd r') ∨
    ∃ me leader term, s' = { s.setReaper t me with leader, term } ∧ s.term ≤ term ∧
      (term = s.term → leader = s.leader) := by
  have hown : ∀ me, s' = s.setReaper t me → ∃ me leader term,
      s' = { s.setReaper t me with leader, term } ∧ s.term ≤ term ∧
        (term = s.term → leader = s.leader) := fun me heq =>
    ⟨me, s.leader, s.term, heq, Nat.le_refl _, fun _ => rfl⟩
  have hkept : s' = s → s' = s.setReaper t (s.reapers t) := fun heq =>
    heq.trans (setReaper_self s t).symm
  cases c with
  | plugin cmd =>
      by_cases hidle : ∃ channelUuid viewerId seen, cmd = .idle channelUuid viewerId seen
      · obtain ⟨channelUuid, viewerId, seen, rfl⟩ := hidle
        simp only [ReaperWorld.exec] at h
        obtain ⟨⟨w, r'⟩, hw, heq⟩ := Option.map_eq_some_iff.mp h
        cases heq
        exact .inl ⟨_, _, _, _, _, _, rfl, World.exec_effect hw, rfl, rfl⟩
      · obtain ⟨w, hw, heq⟩ := exec_plugin (fun channelUuid viewerId seen heq =>
          hidle ⟨channelUuid, viewerId, seen, heq⟩) h
        exact .inr (.inl ⟨_, _, _, rfl, World.exec_effect hw, heq⟩)
  | setLeader =>
      refine .inr (.inr ?_)
      simp only [ReaperWorld.exec] at h
      split at h <;> cases h
      · exact ⟨_, _, _, rfl, Nat.le_succ _, fun heq => absurd heq (Nat.succ_ne_self _)⟩
      · exact ⟨_, _, _, rfl, Nat.le_succ _, fun heq => absurd heq (Nat.succ_ne_self _)⟩
      · exact hown _ rfl
      · exact hown _ rfl
  | getLeader =>
      refine .inr (.inr ?_)
      simp only [ReaperWorld.exec] at h
      split at h
      · cases h
        exact hown _ (hkept rfl)
      · split at h <;> cases h
        · exact hown _ rfl
        · exact hown _ (hkept rfl)
  | renewLeader =>
      refine .inr (.inr ?_)
      simp only [ReaperWorld.exec] at h
      split at h <;> cases h <;> exact hown _ (hkept rfl)
  | clearTracker =>
      cases h
      exact .inr (.inr (hown _ rfl))
  | settings =>
      refine .inr (.inr ?_)
      simp only [ReaperWorld.exec] at h
      split at h
      · cases h
        exact hown _ (hkept rfl)
      · split at h
        · cases h
          exact hown _ rfl
        · contradiction
  | retainSeen =>
      cases h
      exact .inr (.inr (hown _ rfl))

/-- Only an election changes who leads, and begins a term then. -/
theorem leader_of_exec {c : ReaperCmd Thread} {choice : ReaperChoice}
    {r : Except Failure c.Answer} (h : s.exec t c choice = some (s', r)) :
    s.term ≤ s'.term ∧ (s'.term = s.term → s'.leader = s.leader) := by
  rcases exec_cases h with ⟨_, _, _, w, me, o, rfl, -, -, rfl⟩ | ⟨cmd, w, r', rfl, -, rfl⟩ |
    ⟨me, leader, term, rfl, hle, hkept⟩
  · exact ⟨Nat.le_refl _, fun _ => rfl⟩
  · obtain ⟨-, -, -, hleader, hterm⟩ := noted_shared (s := s) (t := t) (w := w) (r := r')
    exact ⟨Nat.le_of_eq hterm.symm, fun _ => hleader⟩
  · exact ⟨hle, hkept⟩

/-- A reaper's own steps leave what the plugin shares. -/
theorem exec_shared {c : ReaperCmd Thread} {choice : ReaperChoice} {r : Except Failure c.Answer}
    (h : s.exec t c choice = some (s', r)) :
    s'.shared = s.shared ∨ ∃ cmd, c = .plugin cmd ∧ World.Effect t s.shared cmd s'.shared := by
  rcases exec_cases h with ⟨_, _, _, w, me, o, rfl, heffect, -, rfl⟩ |
    ⟨cmd, w, r', rfl, heffect, rfl⟩ | ⟨me, leader, term, rfl, -, -⟩
  · exact .inr ⟨_, rfl, heffect⟩
  · refine .inr ⟨cmd, rfl, ?_⟩
    rw [(noted_shared (s := s) (t := t) (w := w) (r := r')).1]
    exact heffect
  · exact .inl rfl

end Steps

end ReaperWorld

end TimeshiftBuffer

end DispatcharrPvr
