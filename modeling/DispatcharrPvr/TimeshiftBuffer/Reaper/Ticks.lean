import DispatcharrPvr.TimeshiftBuffer.Reaper.Rules

/-!
# TimeshiftBuffer.Reaper.Ticks

A tick of a reaper conducts itself, and so does its loop: each key is looked at
once in a tick, so that what has stood for too long was seen at an earlier one.
-/

namespace DispatcharrPvr

namespace TimeshiftBuffer

open Interleaving Interleaving.Program Interleaving.Discipline Runs

variable {Thread : Type} [DecidableEq Thread]

namespace ReaperWorld

section Ticks

variable {ticks : Thread → Nat} {t : Thread} {P : ReaperWorld Thread → Prop} {α β : Type}

/-- The tick's election is won, and it has looked at none of these keys yet. -/
def Unaged (t : Thread) (K : TrackerKey → Prop) (s : ReaperWorld Thread) : Prop :=
  (s.reapers t).elected.isSome = true ∧ ∀ key ∈ (s.reapers t).seenKeys, ¬ K key

omit [DecidableEq Thread] in
theorem Unaged.mono {K K' : TrackerKey → Prop} {s : ReaperWorld Thread} (h : Unaged t K s)
    (hK : ∀ key, K' key → K key) : Unaged t K' s :=
  ⟨h.1, fun key hkey h' => h.2 key hkey (hK key h')⟩

theorem stable_unaged {K : TrackerKey → Prop} : (fairness ticks).Stable t (Unaged t K) :=
  fun _ _ h hlater => by
    rw [Unaged, hlater.own]
    exact h

theorem stable_seenTwice {key : TrackerKey} {value : Int} :
    (fairness ticks).Stable t fun s => s.SeenTwice t key value :=
  fun _ _ h hlater => h.later hlater

variable {channelUuid : Text} {viewerId : Option Text} {seen : Int}

/-- These values the reaper has seen twice. -/
def AllSeenTwice (t : Thread) (found : List (TrackerKey × Int)) (s : ReaperWorld Thread) : Prop :=
  ∀ e ∈ found, s.SeenTwice t e.1 e.2

theorem stable_allSeenTwice {found : List (TrackerKey × Int)} :
    (fairness ticks).Stable t (AllSeenTwice t found) :=
  fun _ _ h hlater e he => (h e he).later hlater

/-- **The tracker**: a value that has stood for too long was seen at an earlier tick, a key
being looked at once in a tick. -/
theorem keeps_idle {K : TrackerKey → Prop} {found : List (TrackerKey × Int)}
    (hK : K (channelUuid, viewerId)) :
    (fairness ticks).Keeps t (fun s => Unaged t K s ∧ AllSeenTwice t found s)
      (lift (call (.idle channelUuid viewerId seen))) fun r s =>
        Unaged t (fun key => K key ∧ key ≠ (channelUuid, viewerId)) s ∧
          AllSeenTwice t found s ∧
            (r = .ok true → s.SeenTwice t (channelUuid, viewerId) seen) := by
  rw [lift_call]
  refine Keeps.perform (stable_unaged.and stable_allSeenTwice) fun s hinv h =>
    ⟨trivial, fun choice s' r _ hexec => ?_⟩
  have hinv' : Inv { s with shared := s'.shared } := by
    rcases exec_shared (c := .plugin (.idle channelUuid viewerId seen)) hexec with hsame | ⟨cmd, hcmd, heffect⟩
    · rw [hsame]
      exact hinv
    · obtain rfl := ReaperCmd.plugin.inj hcmd
      exact hinv.plugin (t := t) (c := .idle channelUuid viewerId seen) trivial heffect
  simp only [reaperLoops, ReaperWorld.exec, World.exec, Option.map_some, Option.some.injEq,
    Prod.mk.injEq] at hexec
  obtain ⟨rfl, rfl⟩ := hexec
  obtain ⟨term, hbacked, hterm⟩ := hinv.backed t
  obtain ⟨⟨helected, hunaged⟩, hfound⟩ := h
  have hunseen : (channelUuid, viewerId) ∉ (s.reapers t).seenKeys := fun hmem =>
    hunaged _ hmem hK
  refine ⟨⟨⟨hinv'.scripts, hinv'.listed, fun t' => ?_, ?_⟩, fun t' hne => ?_⟩, ⟨?_, ?_⟩, ?_,
    fun hstale => ?_⟩
  · by_cases ht : t' = t
    · subst ht
      exact ⟨term, by
        simpa [setReaper] using hbacked.age helected (channelUuid, viewerId) seen (s.clock t') _,
        hterm⟩
    · obtain ⟨term', hothers, hterm'⟩ := hinv.backed t'
      exact ⟨term', by simpa [setReaper, update_of_ne _ _ ht] using hothers.others (Ne.symm ht),
        hterm'⟩
  · refine ((hinv.termed.setReaper (t := t) ?_).sight ?_ ?_).later rfl rfl rfl rfl
    · exact hinv.termed.elected_le t
    · exact hinv.termed.elected_le t
    · exact fun hleader => decide_eq_true hleader
  · exact ⟨update_of_ne _ _ hne, fun _ h => List.mem_cons_of_mem _ h, fun _ h => h, fun _ h => h⟩
  · simpa [setReaper] using helected
  · intro key hkey hKkey
    simp only [setReaper, update_self] at hkey
    rcases List.mem_cons.mp hkey with rfl | hkey
    · exact hKkey.2 rfl
    · exact hunaged key hkey hKkey.1
  · intro e he
    exact (hfound e he).still (by simp [setReaper]) (by simp [setReaper])
      fun _ h => List.mem_cons_of_mem _ h
  · have hage : seconds (s.reapers t).idleTimeout <
        ((s.reapers t).tracker.age (s.clock t) (channelUuid, viewerId) seen).1 := by
      simpa using hstale
    have hpos : 0 ≤ seconds (s.reapers t).idleTimeout := by
      rw [seconds]
      omega
    obtain ⟨first, hfirst, hof, hfirstTerm, hleads, htick, htime⟩ :=
      hbacked.of_age_pos helected hunseen (lt_of_le_of_lt hpos hage)
    refine ⟨first, List.mem_cons_of_mem _ hfirst, _, List.mem_cons_self, hof, ⟨rfl, rfl, rfl⟩, ?_⟩
    simp only [setReaper, update_self, true_and]
    exact ⟨htick, htime ▸ hage, hfirstTerm ▸ helected, hfirstTerm.symm, hleads⟩

/-- `Q` of what a program came to; nothing of a failure, which ends the tick. -/
def Yields (Q : α → ReaperWorld Thread → Prop) : Except Failure α → ReaperWorld Thread → Prop
  | .ok a, s => Q a s
  | .error _, _ => True

theorem keeps_bindYields {p : ReaperProg Thread α} {f : α → ReaperProg Thread β}
    {A : α → ReaperWorld Thread → Prop} {Q : β → ReaperWorld Thread → Prop}
    (hp : (fairness ticks).Keeps t P p (Yields A))
    (hf : ∀ a, (fairness ticks).Keeps t (A a) (f a) (Yields Q)) :
    (fairness ticks).Keeps t P (p.bind f) (Yields Q) :=
  hp.bind hf fun _ _ _ _ => trivial

theorem keeps_liftYields {p : Prog Thread α} {f : α → Prog Thread β}
    {A : α → ReaperWorld Thread → Prop} {Q : β → ReaperWorld Thread → Prop}
    (hp : (fairness ticks).Keeps t P (lift p) (Yields A))
    (hf : ∀ a, (fairness ticks).Keeps t (A a) (lift (f a)) (Yields Q)) :
    (fairness ticks).Keeps t P (lift (p.bind f)) (Yields Q) := by
  rw [lift_bind]
  exact keeps_bindYields hp hf

/-- The stale viewers, as what has been seen. -/
def viewersSeen (channelUuid : Text) (stale : Dict Int) : List (TrackerKey × Int) :=
  stale.map fun e => ((channelUuid, some e.1), e.2)

/-- `_stale_viewers`: the viewers that it finds stale have been seen twice. -/
theorem keeps_staleViewers {heartbeats : Dict Int} {K : TrackerKey → Prop}
    {found : List (TrackerKey × Int)} (hnodup : (heartbeats.map Prod.fst).Nodup)
    (hK : ∀ e ∈ heartbeats, K (channelUuid, some e.1)) :
    (fairness ticks).Keeps t (fun s => Unaged t K s ∧ AllSeenTwice t found s)
      (lift (staleViewers channelUuid heartbeats)) (Yields fun stale s =>
        Unaged t (fun key => K key ∧ ∀ e ∈ heartbeats, key ≠ (channelUuid, some e.1)) s ∧
          AllSeenTwice t (viewersSeen channelUuid stale ++ found) s) := by
  induction heartbeats generalizing K found with
  | nil => exact Keeps.done fun s _ h => ⟨h.1.mono fun _ h => h.1, h.2⟩
  | cons e rest ih =>
      obtain ⟨viewerId, seen⟩ := e
      obtain ⟨hfirst, hrest⟩ := List.nodup_cons.mp hnodup
      refine keeps_liftYields (A := fun stale s =>
        Unaged t (fun key => K key ∧ key ≠ (channelUuid, some viewerId)) s ∧
          AllSeenTwice t (if stale then ((channelUuid, some viewerId), seen) :: found else found) s)
        ((keeps_idle (hK _ List.mem_cons_self)).post fun r s h => ?_) fun stale => ?_
      · cases r with
        | error e => trivial
        | ok stale =>
            refine ⟨h.1, fun e he => ?_⟩
            cases stale with
            | false => exact h.2.1 e he
            | true =>
                rcases List.mem_cons.mp he with rfl | he
                · exact h.2.2 rfl
                · exact h.2.1 e he
      · refine keeps_liftYields (ih hrest fun e he => ⟨hK e (List.mem_cons_of_mem _ he), ?_⟩)
          fun others => Keeps.done fun s _ h => ⟨h.1.mono fun key hkey => ?_, fun e he => h.2 e ?_⟩
        · intro heq
          obtain rfl : e.1 = viewerId := by simpa using heq
          exact hfirst (List.mem_map.mpr ⟨e, he, rfl⟩)
        · obtain ⟨hin, hothers⟩ := hkey
          exact ⟨⟨hin, hothers _ List.mem_cons_self⟩, fun e he =>
            hothers e (List.mem_cons_of_mem _ he)⟩
        · cases stale with
          | false => exact he
          | true =>
              simp only [viewersSeen, if_true, List.map_cons, List.mem_append, List.mem_cons]
                at he ⊢
              tauto

omit [DecidableEq Thread] in
theorem nodup_listedHeartbeats {state : BufferState} (h : state.viewers.Nodup) :
    ((listedHeartbeats state).map Prod.fst).Nodup := by
  have hkeys : (listedHeartbeats state).map Prod.fst =
      state.viewers.filter fun viewerId => (state.viewerHeartbeats.get viewerId).isSome := by
    rw [listedHeartbeats]
    generalize state.viewers = viewers
    induction viewers with
    | nil => rfl
    | cons viewerId rest ih =>
        cases hget : state.viewerHeartbeats.get viewerId <;> simp [hget, ih]
  exact hkeys ▸ h.filter _

omit [DecidableEq Thread] in
/-- A prune drops the viewers that it was told of, their heartbeats being the same still. -/
theorem fairWrite_dropStaleViewers {s : ReaperWorld Thread} {old new : BufferState}
    {stale : Dict Int} (hnew : dropStaleViewers old stale = some new)
    (hstale : AllSeenTwice t (viewersSeen channelUuid stale) s) :
    s.FairWrite t channelUuid old new := by
  simp only [dropStaleViewers] at hnew
  split at hnew
  · contradiction
  obtain rfl := Option.some.inj hnew
  refine ⟨rfl, List.filter_sublist, fun viewerId hold hgone => ?_, fun hne => absurd rfl hne⟩
  simp only [List.mem_filter, hold, true_and, decide_not, Bool.not_eq_true',
    decide_eq_false_iff_not, not_not, List.mem_map] at hgone
  obtain ⟨e, ⟨he, hsame⟩, rfl⟩ := hgone
  obtain ⟨-, hvalue⟩ := Bool.and_eq_true_iff.mp hsame
  exact ⟨e.2, by simpa using hvalue, hstale _ (List.mem_map.mpr ⟨e, he, rfl⟩)⟩

/-- A prune of the viewers found stale. -/
theorem keeps_prune {K : TrackerKey → Prop} {stale : Dict Int} {found : List (TrackerKey × Int)} :
    (fairness ticks).Keeps t
      (fun s => Unaged t K s ∧ AllSeenTwice t (viewersSeen channelUuid stale ++ found) s)
      (lift (updateBufferState channelUuid (fun fresh => pure (dropStaleViewers fresh stale)) none))
      (Yields fun _ s =>
        Unaged t K s ∧ AllSeenTwice t (viewersSeen channelUuid stale ++ found) s) := by
  refine (keeps_tryUpdate (G := fun _ => True) (stable_unaged.and stable_allSeenTwice)
    (fun old => Keeps.done fun s _ h => ⟨h, fun new hnew => ?_⟩) stateUpdateAttempts).post
    fun r s h => ?_
  · cases r with
    | error e => trivial
    | ok _ => exact h.1
  · have hstale : AllSeenTwice t (viewersSeen channelUuid stale) s := fun e he =>
      h.2 e (List.mem_append_left _ he)
    exact ⟨fairWrite_dropStaleViewers (Except.ok.inj hnew) hstale, trivial⟩

/-- The reaper's check of the buffer itself, behind that of its viewers. -/
theorem keeps_reapIdle {state : BufferState} {rest : List Text} (heartbeats : Dict Int)
    (found : List (TrackerKey × Int)) (hother : channelUuid ∉ rest)
    (hchannel : state.channelUuid = channelUuid) :
    (fairness ticks).Keeps t
      (fun s => Unaged t (fun key => key.1 ∈ channelUuid :: rest ∧
        ∀ e ∈ heartbeats, key ≠ (channelUuid, some e.1)) s ∧ AllSeenTwice t found s)
      (lift ((call (.idle channelUuid none state.lastHeartbeat)).bind fun idle =>
        if idle then
          (teardownBuffer state (.heartbeatSince state.lastHeartbeat) false).bind fun _ => .done ()
        else .done ()))
      (Yields fun _ => Unaged t fun key => key.1 ∈ rest) := by
  refine keeps_liftYields (A := fun idle s => Unaged t (fun key => key.1 ∈ rest) s ∧
    (idle = true → s.SeenTwice t (channelUuid, none) state.lastHeartbeat))
    ((keeps_idle ⟨List.mem_cons_self, by simp⟩).post fun r s h => ?_) fun idle => ?_
  · cases r with
    | error e => trivial
    | ok idle =>
        refine ⟨h.1.mono fun key hkey => ?_, fun hidle => h.2.2 (by rw [hidle])⟩
        have hne : key.1 ≠ channelUuid := fun heq => hother (heq ▸ hkey)
        exact ⟨⟨List.mem_cons_of_mem _ hkey, fun e _ heq => hne (congrArg Prod.fst heq)⟩,
          fun heq => hne (congrArg Prod.fst heq)⟩
  cases idle with
  | false => exact Keeps.done fun s _ h => h.1
  | true =>
      refine Keeps.pre (P := fun s => Unaged t (fun key => key.1 ∈ rest) s ∧
        s.SeenTwice t (channelUuid, none) state.lastHeartbeat) ?_ fun s _ h => ⟨h.1, h.2 rfl⟩
      refine keeps_liftYields (A := fun _ => Unaged t fun key => key.1 ∈ rest)
        ((keeps_teardownBuffer
        (stable_unaged.and stable_seenTwice) fun s h => hchannel ▸ h.2).post fun r s h => ?_)
        fun _ => Keeps.done fun s _ h => h
      cases r with
      | error e => trivial
      | ok _ => exact h.1

/-- **One buffer's part of a tick**: the tick has looked at this channel's keys when it is
done. -/
theorem keeps_reapBuffer {rest : List Text} (hother : channelUuid ∉ rest) :
    (fairness ticks).Keeps t (Unaged t fun key => key.1 ∈ channelUuid :: rest)
      (lift (reapBuffer channelUuid)) (Yields fun _ => Unaged t fun key => key.1 ∈ rest) := by
  refine keeps_liftYields (A := fun found s =>
    (Unaged t (fun key => key.1 ∈ channelUuid :: rest) s ∧ AllSeenTwice t [] s) ∧
      ∀ state ∈ found, WellListed channelUuid state)
    ((keeps_askState stable_unaged).post fun r s h => ?_) fun found => ?_
  · cases r with
    | error e => trivial
    | ok found =>
        exact ⟨⟨h.1, by simp [AllSeenTwice]⟩, fun state hstate => h.2.2 state (by rw [hstate])⟩
  cases found with
  | none => exact Keeps.done fun s _ h => h.1.1.mono fun key hkey => List.mem_cons_of_mem _ hkey
  | some state =>
      intro s hinv h
      obtain ⟨h, hlisted⟩ := h
      obtain ⟨hchannel, hnodup⟩ := hlisted state rfl
      suffices hkeeps : (fairness ticks).Keeps t (fun s =>
          Unaged t (fun key => key.1 ∈ channelUuid :: rest) s ∧ AllSeenTwice t [] s) _ _ from
        hkeeps s hinv h
      refine keeps_liftYields (keeps_staleViewers (nodup_listedHeartbeats hnodup) fun _ _ =>
        List.mem_cons_self) fun stale => ?_
      dsimp only
      split
      · exact keeps_liftYields keeps_prune fun _ => keeps_reapIdle _ _ hother hchannel
      · exact keeps_reapIdle _ _ hother hchannel

theorem keeps_reapBuffers {keys : List Text} (hnodup : keys.Nodup) :
    (fairness ticks).Keeps t (Unaged t fun key => key.1 ∈ keys) (lift (reapBuffers keys))
      (Yields fun _ _ => True) := by
  induction keys with
  | nil => exact Keeps.done fun _ _ _ => trivial
  | cons channelUuid rest ih =>
      obtain ⟨hother, hrest⟩ := List.nodup_cons.mp hnodup
      exact keeps_liftYields (keeps_reapBuffer hother) fun _ => ih hrest

/-- The tick has looked at nothing yet. -/
abbrev Fresh (t : Thread) : ReaperWorld Thread → Prop := Unaged t fun _ => True

theorem nodup_eraseDups (keys : List Text) : keys.eraseDups.Nodup := by
  match keys with
  | [] => exact List.nodup_nil
  | key :: rest =>
      rw [List.eraseDups_cons]
      have hlength := List.length_filter_le (fun k => !k == key) rest
      refine List.nodup_cons.mpr ⟨fun hmem => ?_, nodup_eraseDups _⟩
      simp at hmem
termination_by keys.length

theorem keeps_listBufferKeys :
    (fairness ticks).Keeps t (Fresh t) (lift listBufferKeys)
      (Yields fun keys s => keys.Nodup ∧ Fresh t s) := by
  have hyields : ∀ {α : Type} {r : Except Failure α} {s : ReaperWorld Thread},
      Leaving (Fresh t) (fun _ => True) r s → Yields (fun _ => Fresh t) r s := fun {_ r _} h => by
    cases r with
    | ok a => exact h.1
    | error e => trivial
  exact keeps_liftYields ((keeps_harmless stable_unaged rfl).post fun _ _ => hyields) fun _ =>
    keeps_liftYields ((keeps_harmless stable_unaged rfl).post fun _ _ => hyields) fun keys =>
      Keeps.done fun s _ h => ⟨nodup_eraseDups keys, h⟩

end Ticks

end ReaperWorld

end TimeshiftBuffer

end DispatcharrPvr
