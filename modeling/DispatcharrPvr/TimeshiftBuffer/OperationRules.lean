import DispatcharrPvr.TimeshiftBuffer.Rules

/-!
# TimeshiftBuffer.OperationRules

Stops, heartbeats, manifests, the reaper and the scrub conduct themselves.
-/

namespace DispatcharrPvr

namespace TimeshiftBuffer

open Interleaving Interleaving.Program Interleaving.Discipline

namespace Setting

variable {Thread : Type} [DecidableEq Thread] {S : Setting Thread} {t : Thread}
  {P : World Thread → Prop} {α : Type}

/-! ## the operations but `start_buffer` -/

section Operations

/-- What an operation that is no start knows throughout. -/
abbrev Idle (t : Thread) : World Thread → Prop := Tied t unheld

theorem keeps_scrubOrphans (storagePath : Text) (names : List Text) :
    (conduct S).Keeps t (Idle t) (scrubOrphans storagePath names)
      (Leaving (Idle t) fun _ => True) := by
  induction names with
  | nil => exact Keeps.doneLeaving trivial
  | cons name rest ih =>
      refine Keeps.pre (P := fun s => Idle t s ∧ True) (Keeps.bind (keeps_acquire
        (.channel name) stable_true fun _ _ _ _ => trivial) (fun found => ?_)
        fun e s _ h => h.1) fun s _ h => ⟨h, trivial⟩
      cases found with
      | none => exact ih.pre fun s _ h => h.1
      | some token =>
          intro s hinv h
          have htoken := h.2.1
          suffices hrest : (conduct S).Keeps t (Tied t (heldFor name token)) _ _ from
            hrest s hinv h.1.1
          refine Keeps.bind (B := Leaving (Idle t) fun _ => True) ?_ (fun _ =>
            ih.pre fun s _ h => h.1) fun e s _ h => h
          refine Keeps.tryFinally (B := fun _ s => Tied t (heldFor name token) s) ?_ fun r => ?_
          · refine (keeps_isUntrackedOrphan (storagePath, name) stable_tied htoken).bind
              (fun orphan => ?_) fun e s _ h => h
            cases orphan with
            | false => exact Keeps.done fun s _ h => h.1.1
            | true =>
                have hstable : (conduct S).Stable t fun s =>
                    Tied t (heldFor name token) s ∧ S.Under s name token none :=
                  stable_tied.and (stable_under htoken)
                have hclearing : ∀ s, Tied t (heldFor name token) s ∧ S.Under s name token none →
                    S.Clearing t (storagePath, name) token s := fun s h =>
                  ⟨by rw [h.1.2]; exact update_self .., h.2, h.1.1⟩
                refine Keeps.weaken ((keeps_reapUntrackedFfmpeg hstable hclearing).bindLeaving
                  fun _ _ => keeps_clearChannelDir hstable hclearing)
                  (fun s _ h => ⟨h.1.1, h.1.2 rfl⟩) fun r s h => ?_
                cases r with
                | ok _ => exact h.1.1
                | error _ => exact h.1
          · refine (keeps_release stable_tied stable_tied htoken fun s h => tied_hold h).post
              fun r' s h => ?_
            cases r' with
            | ok _ => cases r with
              | ok _ => exact ⟨h, trivial⟩
              | error _ => exact h
            | error _ => exact h

theorem keeps_findOrphans (storagePath : Text) (names : List Text) :
    (conduct S).Keeps t (Idle t) (findOrphans storagePath names)
      (Leaving (Idle t) fun _ => True) := by
  induction names with
  | nil => exact Keeps.doneLeaving trivial
  | cons name rest ih =>
      refine Keeps.bindLeaving (A := fun _ => True) ((keeps_isUntrackedOrphan
        (storagePath, name) stable_tied (rfl : (LockToken.mk t 0).thread = t)).post fun r s h => ?_) fun _ _ =>
          ih.bindLeaving fun _ _ => Keeps.doneLeaving trivial
      cases r with
      | ok _ => exact ⟨h.1.1, trivial⟩
      | error _ => exact h

theorem keeps_scrubOrphanedDirs (storagePath : Text) :
    (conduct S).Keeps t (Idle t) (scrubOrphanedDirs storagePath)
      (Leaving (Idle t) fun _ => True) :=
  keeps_ask stable_tied fun names => (keeps_findOrphans storagePath names).bindLeaving
    fun orphans _ => keeps_scrubOrphans storagePath orphans

/-- A channel's state, which a start has registered. -/
theorem keeps_askState {channelUuid : Text} {f : Option BufferState → Prog Thread α}
    {A : α → Prop} (hP : (conduct S).Stable t P)
    (hnone : (conduct S).Keeps t P (f none) (Leaving P A))
    (hsome : ∀ state, state.channelUuid = channelUuid →
      (conduct S).Keeps t (fun s => P s ∧ s.Seen state) (f (some state)) (Leaving P A)) :
    (conduct S).Keeps t P ((ask (.state channelUuid)).bind f) (Leaving P A) := by
  refine Keeps.bind (B := fun r s => P s ∧ ∀ state, r = .ok (some state) →
    state.channelUuid = channelUuid ∧ s.Seen state)
    (keeps_query hP fun s choice r hinv hPs _ hanswer => ?_) (fun found => ?_) fun e s _ h => h.1
  · simp only [World.answer] at hanswer
    split at hanswer <;> cases hanswer
    · exact ⟨hPs, by simp⟩
    · exact ⟨hPs, fun state hstate => hinv.tracked _ _ (Except.ok.inj hstate)⟩
  · cases found with
    | none => exact hnone.pre fun s _ h => h.1
    | some state =>
        exact fun s hinv h => hsome state (h.2 state rfl).1 s hinv ⟨h.1, (h.2 state rfl).2⟩

/-- An update that says nothing of its outcome. -/
theorem keeps_update {channelUuid : Text} {instance' : Option ProcessId}
    {mutate : BufferState → Prog Thread (Option BufferState)} (hP : (conduct S).Stable t P)
    (hmutate : ∀ old, old.channelUuid = channelUuid →
      (conduct S).Keeps t (fun s => P s ∧ s.Seen old) (mutate old)
        (S.Mutated t channelUuid instance' P P old)) :
    (conduct S).Keeps t P (updateBufferState channelUuid mutate instance')
      (Leaving P fun _ => True) :=
  (keeps_updateBufferState hP hmutate).post fun r s h => by
    cases r with
    | ok _ => exact ⟨h.1.1, trivial⟩
    | error _ => exact h

/-- A change to be made at the time the clock tells. -/
theorem keeps_mutation {channelUuid : Text} {change : Int → Option BufferState}
    {old : BufferState} (hP : (conduct S).Stable t P) (hchannel : old.channelUuid = channelUuid)
    (hchange : ∀ s now new, now ≤ s.clock → change now = some new →
      Changes s t (S.requests t) channelUuid old new none) :
    (conduct S).Keeps t (fun s => P s ∧ s.Seen old)
      ((ask .sharedNow).bind fun now => .done (change now))
      (S.Mutated t channelUuid none P P old) :=
  keeps_now (hP.and stable_seen) fun now => Keeps.done fun s _ h => by
    cases hnew : change now with
    | none => exact h.1.1
    | some new => exact ⟨h.1.1, hchange s now new h.2 hnew, hchannel, h.1.2⟩

theorem keeps_heartbeat {request : ViewerRequest} (hrequest : S.requests t = .heartbeat request) :
    (conduct S).Keeps t (Idle t) (heartbeat request) (Leaving (Idle t) fun _ => True) := by
  refine (keeps_update stable_tied fun old hchannel => ?_).bindLeaving fun outcome _ => ?_
  · simp only [heartbeatOf]
    split
    · exact Keeps.done fun s _ h => h.1
    · next hcurrent =>
        refine keeps_mutation stable_tied hchannel fun s now new hnow hnew => ?_
        exact Option.some.inj hnew ▸ hrequest ▸ .heartbeats hnow (by simpa using hcurrent)
  · cases outcome <;> exact Keeps.doneLeaving trivial

theorem keeps_touchHeartbeat {request : ViewerRequest}
    (hrequest : S.requests t = .touchHeartbeat request) :
    (conduct S).Keeps t (Idle t) (touchHeartbeat request) (Leaving (Idle t) fun _ => True) := by
  refine Keeps.tryExceptLeaving (Keeps.bindLeaving (keeps_update stable_tied fun old hchannel => ?_)
    fun _ _ => Keeps.doneLeaving trivial) fun _ => Keeps.doneLeaving trivial
  exact keeps_mutation stable_tied hchannel fun s now new hnow hnew => hrequest ▸ .reads hnow hnew

theorem keeps_stopBuffer {request : ViewerRequest} (hrequest : S.requests t = .stopBuffer request) :
    (conduct S).Keeps t (Idle t) (stopBuffer request) (Leaving (Idle t) fun _ => True) := by
  refine keeps_askState stable_tied (Keeps.doneLeaving trivial) fun state hchannel => ?_
  dsimp only
  split
  · exact Keeps.done fun s _ h => ⟨h.1, trivial⟩
  next hcurrent =>
  split
  · next viewerId hviewer =>
      refine Keeps.bind ((keeps_updateBufferState (P := Idle t) stable_tied fun old hold =>
        ?_).pre fun s _ h => h.1) (fun outcome => ?_) fun e s _ h => h
      · simp only [dropViewerOf]
        split
        · exact Keeps.done fun s _ h => h.1
        · exact keeps_mutation stable_tied hold fun s now new hnow hnew =>
            hrequest ▸ .drops hviewer hnow hnew
      · cases outcome with
        | absent => exact Keeps.done fun s _ h => ⟨h.1.1, trivial⟩
        | declined => exact Keeps.done fun s _ h => ⟨h.1.1, trivial⟩
        | contended => exact Keeps.done fun s _ h => ⟨h.1.1, trivial⟩
        | written new =>
            dsimp only
            split
            · exact Keeps.done fun s _ h => ⟨h.1.1, trivial⟩
            intro s hinv h
            obtain ⟨old, hchanges, hold, hseen⟩ := h.1.2 new rfl
            have hcontinues := hchanges.continues
            rw [hrequest] at hchanges
            have hremoves : (S.requests t).removes new .viewersListed := by
              rw [hrequest]
              exact ⟨hcontinues.channelUuid.trans hold, hchanges.drop_current, by simp [hviewer]⟩
            refine Keeps.bind (keeps_teardownBuffer hremoves) (fun stopped => ?_)
              (fun e s _ h => h.1) s hinv ⟨h.1.1, hseen.continues hcontinues⟩
            split <;> exact Keeps.done fun s _ h => ⟨h.1.1, trivial⟩
  · next hviewer =>
      have hremoves : (S.requests t).removes state .never := by
        rw [hrequest]
        exact ⟨hchannel, by simpa using hcurrent, by simp [hviewer]⟩
      exact (keeps_teardownBuffer hremoves).bind (fun _ => Keeps.done fun s _ h =>
        ⟨h.1.1, trivial⟩) fun e s _ h => h.1

theorem keeps_stopBuffers (hrequest : S.requests t = .stopAll) (keys : List Text) :
    (conduct S).Keeps t (Idle t) (stopBuffers keys) (Leaving (Idle t) fun _ => True) := by
  induction keys with
  | nil => exact Keeps.doneLeaving trivial
  | cons key rest ih =>
      refine keeps_askState stable_tied ih fun state _ => ?_
      have hremoves : (S.requests t).removes state .never := hrequest ▸ rfl
      exact (keeps_teardownBuffer hremoves).bind (fun _ => ih.pre fun s _ h => h.1.1)
        fun e s _ h => h.1

theorem keeps_listBufferKeys (hP : (conduct S).Stable t P) :
    (conduct S).Keeps t P listBufferKeys (Leaving P fun _ => True) :=
  (keeps_mild (c := .scan) hP rfl fun _ _ _ => trivial).bindLeaving fun _ _ =>
    keeps_ask hP fun _ => Keeps.doneLeaving trivial

theorem keeps_stopAll (hrequest : S.requests t = .stopAll) :
    (conduct S).Keeps t (Idle t) stopAll (Leaving (Idle t) fun _ => True) :=
  (keeps_listBufferKeys stable_tied).bindLeaving fun keys _ => keeps_stopBuffers hrequest keys

end Operations

/-! ## the manifest -/

section Manifest

variable {state : BufferState}

/-- What is made for this instance, where its files are read from its own
directories, is made from what it has written. -/
def MadeBy (S : Setting Thread) (state : BufferState) (writers : List ProcessId) : Prop :=
  S.CleanReads → ∀ w ∈ writers, w = state.process

omit [DecidableEq Thread] in
theorem MadeBy.append {writers writers' : List ProcessId} (h : S.MadeBy state writers)
    (h' : S.MadeBy state writers') : S.MadeBy state (writers ++ writers') := fun hclean w hw =>
  (List.mem_append.mp hw).elim (h hclean w) (h' hclean w)

omit [DecidableEq Thread] in
theorem MadeBy.nil : S.MadeBy state [] := fun _ _ hw => absurd hw (List.not_mem_nil)

/-- What a thread knows that answers for this buffer. -/
abbrev Reading (t : Thread) (state : BufferState) (s : World Thread) : Prop :=
  Idle t s ∧ s.Seen state

theorem keeps_segmentSize (segName : Text) :
    (conduct S).Keeps t (Reading t state)
      (ask (.segmentSize (channelDir state) segName state.process))
      (Leaving (Reading t state) fun found => ∀ e ∈ found, S.MadeBy state e.2) := by
  refine keeps_query stable_tiedSeen fun s choice r _ h hsupposed hanswer => ?_
  cases hanswer
  refine ⟨h, fun e he hclean w hw => ?_⟩
  obtain ⟨dir, hdir, hsize⟩ := Option.bind_eq_some_iff.mp he
  obtain ⟨size, -, rfl⟩ := Option.map_eq_some_iff.mp hsize
  exact hclean.reads t s _ choice hsupposed dir hdir w hw

theorem keeps_playlistText :
    (conduct S).Keeps t (Reading t state) (ask (.playlistText (channelDir state) state.process))
      (Leaving (Reading t state) fun found => ∀ e ∈ found, S.MadeBy state e.2) := by
  refine keeps_query stable_tiedSeen fun s choice r _ h hsupposed hanswer => ?_
  cases hanswer
  refine ⟨h, fun e he hclean w hw => ?_⟩
  obtain ⟨dir, hdir, htext⟩ := Option.bind_eq_some_iff.mp he
  obtain ⟨playlist, -, rfl⟩ := Option.map_eq_some_iff.mp htext
  exact hclean.reads t s _ choice hsupposed dir hdir w hw

/-- An entry of the cache with the instance's token is its own. -/
theorem keeps_cachedManifest (worker : Nat) :
    (conduct S).Keeps t (Reading t state) (ask (.cachedManifest worker state.channelUuid))
      (Leaving (Reading t state) fun found => ∀ e ∈ found,
        e.1.instanceToken = state.accessToken → S.MadeBy state e.2) := by
  refine keeps_query stable_tiedSeen fun s choice r hinv h _ hanswer => ?_
  cases hanswer
  refine ⟨h, fun e he htoken hclean w hw => ?_⟩
  obtain ⟨R, hR, hentry, hmade⟩ := hinv.caches worker _ e he
  obtain ⟨R', hR', htoken', hprocess⟩ := hinv.seen h.2
  rw [hmade hclean w hw, ← hprocess]
  exact hinv.process_of_token hclean hR hR' (hentry.symm.trans (htoken.trans htoken'.symm))

theorem keeps_rememberManifest {worker : Nat} {entry : CachedManifest × List ProcessId} {a : α}
    {A : α → Prop} (htoken : entry.1.instanceToken = state.accessToken)
    (hmade : S.MadeBy state entry.2) (ha : A a) :
    (conduct S).Keeps t (Reading t state)
      ((call (.rememberManifest worker state.channelUuid entry)).bind fun _ => .done a)
      (Leaving (Reading t state) A) := by
  have hpromise : ∀ s, S.Inv s → Reading t state s →
      S.Promise t s (.rememberManifest worker state.channelUuid entry) := fun s hinv h => by
    obtain ⟨R, hR, htoken', hprocess⟩ := hinv.seen h.2
    exact ⟨R, hR, htoken.trans htoken'.symm, fun hclean w hw =>
      (hmade hclean w hw).trans hprocess.symm⟩
  exact (keeps_mild stable_tiedSeen rfl hpromise).bindLeaving fun _ _ => Keeps.doneLeaving ha

theorem keeps_sizeSegments (old : List SizedSegment) (parsed : List ListedSegment) :
    (conduct S).Keeps t (Reading t state) (sizeSegments state old parsed)
      (Leaving (Reading t state) fun r => S.MadeBy state r.2) := by
  induction parsed with
  | nil => exact Keeps.doneLeaving .nil
  | cons seg rest ih =>
      simp only [sizeSegments]
      split
      · exact ih.bindLeaving fun sized hsized => Keeps.doneLeaving hsized
      · refine (keeps_segmentSize seg.segName).bindLeaving fun found hfound =>
          ih.bindLeaving fun sized hsized => ?_
        cases found with
        | none => exact Keeps.doneLeaving hsized
        | some found => exact Keeps.doneLeaving ((hfound found rfl).append hsized)

theorem keeps_findSegments (worker : Nat) (stamp : Int × Nat) :
    (conduct S).Keeps t (Reading t state) (findSegments S.py worker state stamp)
      (Leaving (Reading t state) fun r => S.MadeBy state r.2) := by
  refine (keeps_cachedManifest worker).bindLeaving fun found hfound => ?_
  dsimp only
  generalize hcached : found.filter (fun cached =>
    state.accessToken.any (· ≠ []) && cached.1.instanceToken == state.accessToken) = cached
  have hown : ∀ e ∈ cached, e.1.instanceToken = state.accessToken ∧ S.MadeBy state e.2 := by
    rintro e he
    rw [← hcached, Option.mem_def, Option.filter_eq_some_iff] at he
    have htoken : e.1.instanceToken = state.accessToken :=
      eq_of_beq (Bool.and_eq_true_iff.mp he.2).2
    exact ⟨htoken, hfound e he.1 htoken⟩
  split
  · next unchanged madeBy hsame =>
      rw [Option.filter_eq_some_iff] at hsame
      obtain ⟨htoken, hmade⟩ := hown _ hsame.1
      split
      · exact Keeps.doneLeaving hmade
      · refine (keeps_segmentSize _).bindLeaving fun size hsize => ?_
        cases size with
        | none => exact Keeps.doneLeaving hmade
        | some sized =>
            have hboth := (hsize sized rfl).append hmade
            exact keeps_rememberManifest htoken hboth hboth
  · refine keeps_playlistText.bindLeaving fun text htext => ?_
    cases text with
    | none => exact Keeps.raiseLeaving
    | some found =>
        have hwritten := htext found rfl
        cases cached with
        | none =>
            refine (keeps_sizeSegments _ _).bindLeaving fun sized hsized => ?_
            have hall := (hsized.append hwritten).append .nil
            exact keeps_rememberManifest rfl hall hall
        | some entry =>
            refine (keeps_sizeSegments _ _).bindLeaving fun sized hsized => ?_
            have hall := (hsized.append hwritten).append (hown entry rfl).2
            exact keeps_rememberManifest rfl hall hall

theorem keeps_readLiveManifest (worker : Nat) :
    (conduct S).Keeps t (Reading t state) (readLiveManifest S.py worker state)
      (Leaving (Reading t state) fun r => S.MadeBy state r.2) := by
  simp only [readLiveManifest]
  split
  · exact Keeps.doneLeaving .nil
  · refine keeps_ask stable_tiedSeen fun found => ?_
    cases found with
    | none =>
        refine keeps_ask stable_tiedSeen fun alive => ?_
        split
        · exact Keeps.doneLeaving .nil
        · exact keeps_ask stable_tiedSeen fun log => Keeps.doneLeaving .nil
    | some _ =>
        refine keeps_ask stable_tiedSeen fun stamp => ?_
        cases stamp with
        | none => exact Keeps.doneLeaving .nil
        | some stamp =>
            exact keeps_ask stable_tiedSeen fun alive =>
              (keeps_findSegments worker stamp).bindLeaving fun found hfound =>
                Keeps.doneLeaving hfound

theorem keeps_getLiveManifestAction {worker : Nat} {request : ViewerRequest}
    (hrequest : S.requests t = .getLiveManifest worker request) :
    (conduct S).Keeps t (Idle t) (getLiveManifestAction S.py worker request)
      (Leaving (Idle t) fun _ => True) := by
  refine keeps_askState stable_tied (Keeps.doneLeaving trivial) fun state hchannel => ?_
  dsimp only
  split
  · exact Keeps.done fun s _ h => ⟨h.1, trivial⟩
  next hcurrent =>
  refine Keeps.bind (Keeps.tryExceptLeaving (keeps_readLiveManifest worker) fun _ =>
    Keeps.doneLeaving .nil) (fun answer => ?_) fun e s _ h => h.1
  obtain ⟨manifest, writers⟩ := answer
  intro s hinv h
  obtain ⟨hreading, hmade⟩ := h
  suffices hrest : (conduct S).Keeps t (Reading t state) _ (Leaving (Idle t) fun _ => True) from
    hrest s hinv hreading
  rcases manifest with e | manifest
  · cases e with
    | bufferFailed log =>
        have hremoves : (S.requests t).removes state .never := by
          rw [hrequest]
          exact ⟨hchannel, by simpa using hcurrent, rfl⟩
        exact (keeps_teardownBuffer hremoves).bind (fun _ => Keeps.done fun s _ h =>
          ⟨h.1.1, trivial⟩) fun e s _ h => h.1
    | runtime message => exact Keeps.done fun s _ h => ⟨h.1, trivial⟩
    | invalidChannelUuid channelUuid => exact Keeps.done fun s _ h => ⟨h.1, trivial⟩
  · refine (keeps_update stable_tiedSeen fun old hold => ?_).bind (fun _ => ?_) fun e s _ h => h.1
    · simp only [heartbeatOf]
      split
      · exact Keeps.done fun s _ h => h.1
      · next hfresh =>
          refine keeps_mutation stable_tiedSeen hold fun s now new hnow hnew => ?_
          exact Option.some.inj hnew ▸ hrequest ▸ .touches hnow (by simpa using hfresh)
    · have hpromise : ∀ s, S.Inv s → Reading t state s →
          S.Promise t s (.answerManifest request.suppliedToken manifest writers) :=
        fun s hinv h => by
          obtain ⟨R, hR, htoken, hprocess⟩ := hinv.seen h.2
          refine ⟨R, hR, ?_, fun hclean w hw => (hmade hclean w hw).trans hprocess.symm⟩
          simpa [isStaleAccessToken, htoken] using hcurrent
      refine Keeps.pre (P := Reading t state) ?_ fun s _ h => h.1
      exact (keeps_mild stable_tiedSeen rfl hpromise).bind (fun _ => Keeps.done fun s _ h =>
        ⟨h.1.1, trivial⟩) fun e s _ h => h.1

end Manifest

/-! ## the reaper -/

section Reaper

variable {storagePath : Text}

/-- The values that the tick has found to have stood for too long. -/
def Idled (t : Thread) (channelUuid : Text) (stale : Dict Int) (s : World Thread) : Prop :=
  ∀ e ∈ stale, (t, channelUuid, some e.1, e.2) ∈ s.idled

theorem stable_idled {channelUuid : Text} {stale : Dict Int} :
    (conduct S).Stable t (Idled t channelUuid stale) := fun _ _ h hrely e he =>
  hrely.idled _ (h e he)

theorem keeps_idle {channelUuid : Text} {viewerId : Option Text} {seen : Int}
    (hP : (conduct S).Stable t P) :
    (conduct S).Keeps t P (call (.idle channelUuid viewerId seen))
      (Ends P (fun idle s => P s ∧ (idle = true → (t, channelUuid, viewerId, seen) ∈ s.idled))
        fun _ => True) := by
  refine keeps_call hP (fun _ _ _ => trivial) fun s choice s' r _ _ _ hexec hP' => ?_
  have hP' := hP' rfl
  simp only [World.exec] at hexec
  cases hflag : choice.flag <;> simp [hflag] at hexec <;> obtain ⟨rfl, rfl⟩ := hexec
  · exact ⟨⟨hP', by simp⟩, trivial⟩
  · exact ⟨⟨hP', by simp⟩, trivial⟩

theorem keeps_staleViewers (channelUuid : Text) (heartbeats : Dict Int)
    (hP : (conduct S).Stable t P) :
    (conduct S).Keeps t P (staleViewers channelUuid heartbeats)
      (Ends P (fun stale s => P s ∧ Idled t channelUuid stale s) fun _ => True) := by
  induction heartbeats generalizing P with
  | nil => exact Keeps.done fun s _ h => ⟨⟨h, by simp [Idled]⟩, trivial⟩
  | cons e rest ih =>
      refine (keeps_idle hP).bind (fun idle => ?_) fun e s _ h => h
      have hstable : (conduct S).Stable t fun s =>
          P s ∧ (idle = true → (t, channelUuid, some e.1, e.2) ∈ s.idled) := fun s s' h hrely =>
        ⟨hP s s' h.1 hrely, fun hidle => hrely.idled _ (h.2 hidle)⟩
      refine ((ih hstable).pre fun s _ h => h.1).bind (fun stale => Keeps.done fun s _ h => ?_)
        fun e s _ h => h.1
      obtain ⟨⟨⟨hPs, hidle⟩, hstale⟩, -⟩ := h
      refine ⟨⟨hPs, fun e' he' => ?_⟩, trivial⟩
      split at he'
      · next hidle' =>
          rcases List.mem_cons.mp he' with rfl | he'
          · exact hidle hidle'
          · exact hstale e' he'
      · exact hstale e' he'

theorem keeps_reapBuffer (hrequest : S.requests t = .reaperTick storagePath)
    (channelUuid : Text) :
    (conduct S).Keeps t (Idle t) (reapBuffer channelUuid) (Leaving (Idle t) fun _ => True) := by
  refine keeps_askState stable_tied (Keeps.doneLeaving trivial) fun state hchannel => ?_
  have hremoves : (S.requests t).removes state (.heartbeatSince state.lastHeartbeat) :=
    hrequest ▸ rfl
  have hrest : (conduct S).Keeps t (Reading t state)
      ((call (.idle channelUuid none state.lastHeartbeat)).bind fun idle =>
        if idle then
          (teardownBuffer state (.heartbeatSince state.lastHeartbeat) false).bind fun _ => .done ()
        else .done ())
      (Leaving (Idle t) fun _ => True) := by
    refine (keeps_idle stable_tiedSeen).bind (fun idle => ?_) fun e s _ h => h.1
    refine Keeps.pre (P := Reading t state) ?_ fun s _ h => h.1.1
    split
    · exact (keeps_teardownBuffer hremoves).bind (fun _ => Keeps.done fun s _ h =>
        ⟨h.1.1, trivial⟩) fun e s _ h => h.1
    · exact Keeps.done fun s _ h => ⟨h.1, trivial⟩
  refine (keeps_staleViewers channelUuid _ stable_tiedSeen).bind (fun stale => ?_)
    fun e s _ h => h.1
  dsimp only
  split
  · have hstable : (conduct S).Stable t fun s => Reading t state s ∧ Idled t channelUuid stale s :=
      stable_tiedSeen.and stable_idled
    refine Keeps.pre (P := fun s => Reading t state s ∧ Idled t channelUuid stale s) ?_
      fun s _ h => h.1
    refine (keeps_update hstable fun old hold => Keeps.done fun s _ h => ?_).bind (fun _ =>
      hrest.pre fun s _ h => h.1.1) fun e s _ h => h.1.1
    cases hnew : dropStaleViewers old stale with
    | none => exact h.1
    | some new => exact ⟨h.1, hrequest ▸ .prunes h.1.2 hnew, hold, h.2⟩
  · exact hrest.pre fun s _ h => h.1.1

theorem keeps_reapBuffers (hrequest : S.requests t = .reaperTick storagePath)
    (keys : List Text) :
    (conduct S).Keeps t (Idle t) (reapBuffers keys) (Leaving (Idle t) fun _ => True) := by
  induction keys with
  | nil => exact Keeps.doneLeaving trivial
  | cons key rest ih => exact (keeps_reapBuffer hrequest key).bindLeaving fun _ _ => ih

theorem keeps_reaperTick (hrequest : S.requests t = .reaperTick storagePath) :
    (conduct S).Keeps t (Idle t) (reaperTick storagePath) (Leaving (Idle t) fun _ => True) :=
  ((keeps_listBufferKeys stable_tied).bindLeaving fun keys _ =>
    (keeps_reapBuffers hrequest keys).bindLeaving fun _ _ =>
      keeps_scrubOrphanedDirs storagePath).tryExceptLeaving fun _ => Keeps.doneLeaving trivial

end Reaper

end Setting

end TimeshiftBuffer

end DispatcharrPvr
