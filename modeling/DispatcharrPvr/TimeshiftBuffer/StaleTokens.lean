import DispatcharrPvr.TimeshiftBuffer.Calls
import DispatcharrPvr.TimeshiftBuffer.OtherInstances
import DispatcharrPvr.TimeshiftBuffer.ViewerCount

/-!
# TimeshiftBuffer.StaleTokens

An earlier instance's token never reaches a later one, as long as steps are in time and
the files that a manifest is made from are read where its own instance alone has written.

A manifest's files are found by the channel's name, and the answer is given whether or not
the touch behind it has found the buffer replaced.
-/

namespace DispatcharrPvr

namespace TimeshiftBuffer

open Interleaving Interleaving.Program Runs

variable {Thread : Type} [DecidableEq Thread]

/-! ## what a token may reach -/

/-- A viewer's request that carries this token. -/
def Op.Carries (token : Text) : Op → Prop
  | .stopBuffer request | .heartbeat request | .touchHeartbeat request
  | .getLiveManifest _ request => request.suppliedToken = some token
  | _ => False

/-- What a step of a request with this token does not do: no state with another token is
changed, no `ffmpeg` is signalled that was started under another, and a manifest is answered
only from what the token's own instance has written. -/
structure KeepsToToken (requests : Thread → Op) (s s' : World Thread) (c : Cmd Thread)
    (token : Text) : Prop where
  state : ∀ channelUuid state other, s.states.get channelUuid = some state →
    state.accessToken = some other → other ≠ token → s'.states.get channelUuid = some state
  process : ∀ process instance' kill, c = .killpg process instance' kill → ∀ e ∈ s.spawned,
    ∀ params, requests e.thread = .startBuffer params → params.token ≠ token →
      s.running e.process = true → e.process.1 ≠ process.1
  manifest : ∀ manifest writers, c = .answerManifest (some token) manifest writers →
    ∃ A ∈ s.registered, A.accessToken = some token ∧ ∀ w ∈ writers, w = A.process

/-- Files are read where the instance alone has written, and a pid that is signalled is
still the process's. -/
def FindsItsOwn (_ : Thread) (s : World Thread) : Cmd Thread → Choice → Prop
  | .query q, _ => s.ReadsOwn q
  | .killpg process _ _, _ => ∀ ticks ∈ s.processes process.1, ticks = process.2
  | _, _ => True

/-- Each start draws a token of its own. -/
structure DrawsTokens (requests : Thread → Op) : Prop where
  drawn : ∀ t params, requests t = .startBuffer params → params.token ≠ []
  distinct : ∀ t t' params params', requests t = .startBuffer params →
    requests t' = .startBuffer params' → params.token = params'.token → t = t'

/-- Redis runs scripts, and the steps are in time and find what is their own. -/
def tokenSetting (py : Python) (maxConcurrent : Nat) (requests : Thread → Op) :
    Setting Thread where
  py := py
  maxConcurrent := maxConcurrent
  requests := requests
  scripts := true
  supposed t s c choice := InTime t s c choice ∧ FindsItsOwn t s c choice

/-! ## what a request of a viewer calls -/

/-- No signal but for an instance that is stopped. -/
def Cmd.namesInstance : Cmd Thread → Bool
  | .killpg _ instance' _ => instance'.isSome
  | _ => true

section Calls

omit [DecidableEq Thread] in
theorem namesInstance_of_removal {state : BufferState} {c : Cmd Thread}
    (h : c.OfRemoval state) : c.namesInstance = true := by
  cases c with
  | killpg process instance' kill =>
      obtain rfl : instance' = some state.process := h
      rfl
  | _ => rfl

omit [DecidableEq Thread] in
theorem calls_update {channelUuid : Text} {instance' : Option ProcessId}
    {mutate : BufferState → Prog Thread (Option BufferState)}
    (hmutate : ∀ old, (mutate old).Calls fun c => c.namesInstance = true) :
    (updateBufferState channelUuid mutate instance').Calls fun c => c.namesInstance = true :=
  calls_tryUpdate (fun _ => rfl) (fun _ _ _ => rfl) (fun _ => rfl) hmutate _

theorem calls_teardownBuffer {state : BufferState} {abortIf : AbortIf} {held : Bool} :
    (teardownBuffer state abortIf held : Prog Thread Bool).Calls
      fun c => c.namesInstance = true := by
  refine Calls.bind (calls_update fun old => ?_) fun outcome => ?_
  · simp only [markStoppingUnless]
    split
    · trivial
    split
    · trivial
    · exact Calls.bind (calls_perform.mpr rfl) fun _ => trivial
  · split
    · trivial
    refine Calls.bind (calls_perform.mpr rfl) fun now => ?_
    have hrest : ∀ marked : BufferState, (if outcome = .absent ∧ ¬ held = true then
        teardownUntrackedBuffer marked else removeBuffer marked outcome : Prog Thread Bool).Calls
          fun c => c.namesInstance = true := fun marked => by
      split
      · exact calls_teardownUntrackedBuffer.mono fun _ => namesInstance_of_removal
      · exact calls_removeBuffer.mono fun _ => namesInstance_of_removal
    dsimp only
    split
    · exact Calls.bind (calls_perform.mpr rfl) fun _ => hrest _
    · exact hrest _

omit [DecidableEq Thread] in
theorem calls_heartbeatOf {viewerId suppliedToken : Option Text} (old : BufferState) :
    (heartbeatOf viewerId suppliedToken old : Prog Thread (Option BufferState)).Calls
      fun c => c.namesInstance = true := by
  simp only [heartbeatOf]
  split
  · trivial
  · exact Calls.bind (calls_perform.mpr rfl) fun _ => trivial

theorem calls_stopBuffer (request : ViewerRequest) :
    (stopBuffer request : Prog Thread Reply).Calls fun c => c.namesInstance = true := by
  refine Calls.bind (calls_perform.mpr rfl) fun found => ?_
  cases found with
  | none => trivial
  | some state =>
      dsimp only
      split
      · trivial
      split
      · refine Calls.bind (calls_update fun old => ?_) fun outcome => ?_
        · simp only [dropViewerOf]
          split
          · trivial
          · exact Calls.bind (calls_perform.mpr rfl) fun _ => trivial
        · cases outcome with
          | written new =>
              dsimp only
              split
              · trivial
              · refine Calls.bind calls_teardownBuffer fun stopped => ?_
                split <;> trivial
          | _ => trivial
      · exact Calls.bind calls_teardownBuffer fun _ => trivial

omit [DecidableEq Thread] in
theorem calls_sizeSegments (state : BufferState) (old : List SizedSegment)
    (parsed : List ListedSegment) :
    (sizeSegments state old parsed : Prog Thread _).Calls fun c => c.namesInstance = true := by
  induction parsed with
  | nil => trivial
  | cons seg rest ih =>
      simp only [sizeSegments]
      split
      · exact ih.bind fun _ => trivial
      · refine Calls.bind (calls_perform.mpr rfl) fun found => ih.bind fun sized => ?_
        cases found <;> trivial

omit [DecidableEq Thread] in
theorem calls_findSegments (py : Python) (worker : Nat) (state : BufferState)
    (stamp : Int × Nat) :
    (findSegments py worker state stamp : Prog Thread _).Calls
      fun c => c.namesInstance = true := by
  refine Calls.bind (calls_perform.mpr rfl) fun found => ?_
  dsimp only
  split
  · split
    · trivial
    · refine Calls.bind (calls_perform.mpr rfl) fun size => ?_
      cases size with
      | none => trivial
      | some sized => exact Calls.bind (calls_perform.mpr rfl) fun _ => trivial
  · refine Calls.bind (calls_perform.mpr rfl) fun text => ?_
    cases text with
    | none => trivial
    | some text =>
        exact Calls.bind (calls_sizeSegments ..) fun sized =>
          Calls.bind (calls_perform.mpr rfl) fun _ => trivial

theorem calls_getLiveManifestAction (py : Python) (worker : Nat) (request : ViewerRequest) :
    (getLiveManifestAction py worker request : Prog Thread Reply).Calls
      fun c => c.namesInstance = true := by
  have hread : ∀ state, (readLiveManifest py worker state : Prog Thread _).Calls
      fun c => c.namesInstance = true := fun state => by
    simp only [readLiveManifest]
    split
    · trivial
    refine Calls.bind (calls_perform.mpr rfl) fun found => ?_
    cases found with
    | none =>
        refine Calls.bind (calls_perform.mpr rfl) fun alive => ?_
        split
        · trivial
        · exact Calls.bind (calls_perform.mpr rfl) fun _ => trivial
    | some _ =>
        refine Calls.bind (calls_perform.mpr rfl) fun stamp => ?_
        cases stamp with
        | none => trivial
        | some stamp =>
            exact Calls.bind (calls_perform.mpr rfl) fun alive =>
              Calls.bind (calls_findSegments ..) fun _ => trivial
  refine Calls.bind (calls_perform.mpr rfl) fun found => ?_
  cases found with
  | none => trivial
  | some state =>
      dsimp only
      split
      · trivial
      refine Calls.bind (Calls.tryExcept (hread state) fun _ => trivial) fun answer => ?_
      obtain ⟨manifest, writers⟩ := answer
      rcases manifest with e | manifest
      · cases e with
        | bufferFailed log => exact Calls.bind calls_teardownBuffer fun _ => trivial
        | _ => trivial
      · exact Calls.bind (calls_update calls_heartbeatOf) fun _ =>
          Calls.bind (calls_perform.mpr rfl) fun _ => trivial

/-- A request of a viewer signals only for the instance that it removes. -/
theorem calls_of_carries (py : Python) (maxConcurrent : Nat) {op : Op} {token : Text}
    (h : op.Carries token) :
    (op.program py maxConcurrent : Prog Thread Unit).Calls fun c => c.namesInstance = true := by
  cases op with
  | stopBuffer request => exact (calls_stopBuffer request).bind fun _ => trivial
  | heartbeat request =>
      refine Calls.bind (Calls.bind (calls_update calls_heartbeatOf) fun outcome => ?_)
        fun _ => trivial
      cases outcome <;> trivial
  | touchHeartbeat request =>
      refine Calls.tryExcept (Calls.bind (calls_update fun old => ?_) fun _ => trivial)
        fun _ => trivial
      exact Calls.bind (calls_perform.mpr rfl) fun _ => trivial
  | getLiveManifest worker request =>
      exact (calls_getLiveManifestAction py worker request).bind fun _ => trivial
  | _ => exact h.elim

end Calls

/-! ## one step -/

namespace Setting

variable {S : Setting Thread} {s s' : World Thread} {t : Thread} {cmd : Cmd Thread}
  {token : Text}

omit [DecidableEq Thread] in
theorem cleanReads_of_findsItsOwn (hdraws : DrawsTokens S.requests)
    (hsupposed : ∀ t s c choice, S.supposed t s c choice → FindsItsOwn t s c choice) :
    S.CleanReads where
  reads t s _ choice h := hsupposed t s _ choice h
  tokens := hdraws.distinct

/-! ### tokens -/

omit [DecidableEq Thread] in
/-- Two registered instances with one process are one. -/
theorem Inv.token_of_process (h : S.Inv s) {e : Spawned Thread} (he : e ∈ s.spawned)
    {R : BufferState} (hR : R ∈ s.registered) (hprocess : e.process = R.process) :
    ∃ params, S.requests e.thread = .startBuffer params ∧ R.accessToken = some params.token := by
  obtain ⟨e', he', hprocess', -, -, hparams⟩ := h.registered R hR
  obtain rfl := h.byProcess e he e' he' (hprocess.trans hprocess'.symm)
  exact hparams

omit [DecidableEq Thread] in
/-- The same instance has the same token. -/
theorem AllDistinct.token_eq (hdistinct : AllDistinct s) (h : S.Inv s) {a b : BufferState}
    (ha : s.Seen a) (hb : s.Seen b) (hsame : a.sameBufferInstance b = true) :
    a.accessToken = b.accessToken := by
  obtain ⟨R, hR, htoken, hprocess⟩ := h.seen ha
  obtain ⟨R', hR', htoken', hprocess'⟩ := h.seen hb
  obtain ⟨e, he, hof, -, -, params, hparams, hown⟩ := h.registered R hR
  have hone : e.process = R'.process := by
    rw [hof, hprocess, hprocess', hdistinct.process_eq ha hb hsame]
  obtain ⟨params', hparams', hown'⟩ := h.token_of_process he hR' hone
  obtain rfl := Op.startBuffer.inj (hparams.symm.trans hparams')
  rw [← htoken, ← htoken', hown, hown']

omit [DecidableEq Thread] in
/-- A token that is not stale for an instance is its own. -/
theorem Inv.token_of_current (h : S.Inv s) (hdraws : DrawsTokens S.requests) (hreal : token ≠ [])
    {state : BufferState} (hseen : s.Seen state)
    (hcurrent : isStaleAccessToken state (some token) = false) :
    state.accessToken = some token := by
  obtain ⟨R, hR, htoken, -⟩ := h.seen hseen
  obtain ⟨e, -, -, -, -, params, hparams, hown⟩ := h.registered R hR
  have hdrawn := hdraws.drawn _ _ hparams
  have hown' : state.accessToken = some params.token := htoken.symm.trans hown
  simpa [isStaleAccessToken, hown', hreal, hdrawn] using hcurrent

omit [DecidableEq Thread] in
/-- A request removes no instance but its token's. -/
theorem removes_current {op : Op} {state : BufferState} {abortIf : AbortIf}
    (hcarries : op.Carries token) (hremoves : op.removes state abortIf) :
    isStaleAccessToken state (some token) = false := by
  cases op with
  | stopBuffer request | getLiveManifest worker request =>
      have hsupplied : request.suppliedToken = some token := hcarries
      exact hsupplied ▸ hremoves.2.1
  | heartbeat | touchHeartbeat => exact hremoves.elim
  | _ => exact hcarries.elim

omit [DecidableEq Thread] in
/-- A request changes no instance but its token's. -/
theorem changes_current {op : Op} {channelUuid : Text} {old new : BufferState}
    {instance' : Option ProcessId} (hcarries : op.Carries token)
    (h : Changes s t op channelUuid old new instance') :
    ∃ state, (state = old ∨ s.Seen state ∧ old.sameBufferInstance state = true) ∧
      isStaleAccessToken state (some token) = false := by
  cases h with
  | attaches | prunes => exact hcarries.elim
  | drops hviewer hnow hnew =>
      refine ⟨old, .inl rfl, ?_⟩
      simp only [Op.Carries] at hcarries
      rw [← hcarries]
      simp only [dropViewer] at hnew
      split at hnew
      · contradiction
      · next hcurrent => simpa using hcurrent
  | heartbeats hnow hcurrent | touches hnow hcurrent =>
      simp only [Op.Carries] at hcarries
      exact ⟨old, .inl rfl, hcarries ▸ hcurrent⟩
  | reads hnow hnew =>
      refine ⟨old, .inl rfl, ?_⟩
      simp only [Op.Carries] at hcarries
      rw [← hcarries]
      simp only [applyReadHeartbeat] at hnew
      split at hnew
      · contradiction
      · next hcurrent => simpa using hcurrent
  | marks hremoves hseen hsame =>
      exact ⟨_, .inr ⟨hseen, hsame⟩, removes_current hcarries hremoves⟩

/-! ### what a step reaches -/

/-- No state with another token is changed. -/
theorem state_of_effect {choice : Choice} (horderly : S.Orderly) (hinv : S.Inv s)
    (hdistinct : AllDistinct s) (hdraws : DrawsTokens S.requests)
    (hcarries : (S.requests t).Carries token) (hreal : token ≠ [])
    (hpromise : S.Promise t s cmd) (hintime : InTime t s cmd choice)
    (heffect : World.Effect t s cmd s') {channelUuid : Text} {state : BufferState} {other : Text}
    (hstate : s.states.get channelUuid = some state) (hother : state.accessToken = some other)
    (hne : other ≠ token) : s'.states.get channelUuid = some state := by
  have hseen := (hinv.tracked _ _ hstate).2
  -- an instance that the request may touch has its token
  have hspared : ∀ A, (A = state ∨ s.Seen A ∧ state.sameBufferInstance A = true) →
      isStaleAccessToken A (some token) = true := fun A hA => by
    by_contra hstale
    have hcurrent : isStaleAccessToken A (some token) = false := by simpa using hstale
    have hown : state.accessToken = some token := by
      rcases hA with rfl | ⟨hseenA, hsame⟩
      · exact hinv.token_of_current hdraws hreal hseen hcurrent
      · rw [hdistinct.token_eq hinv hseen hseenA hsame]
        exact hinv.token_of_current hdraws hreal hseenA hcurrent
    exact hne (Option.some.inj (hother.symm.trans hown))
  have hremoved : ∀ A, S.Removing t s A → state.sameBufferInstance A = true → False :=
    fun A ⟨⟨_, hremoves⟩, hseenA⟩ hsame => Bool.false_ne_true
      ((removes_current hcarries hremoves).symm.trans (hspared A (.inr ⟨hseenA, hsame⟩)))
  have hafter := statesAfter_of_effect horderly.toGuarded hpromise heffect
  generalize s'.states = states at hafter
  cases hafter with
  | same => exact hstate
  | registers hregisters =>
      obtain ⟨params, hparams, -⟩ := hregisters.token
      rw [hparams] at hcarries
      exact hcarries.elim
  | changes hfound hchanges =>
      rw [Dict.get_set]
      split
      · next heq =>
          obtain rfl := Option.some.inj (hstate.symm.trans (heq ▸ hfound))
          obtain ⟨A, hA, hcurrent⟩ := changes_current hcarries hchanges
          exact absurd (hcurrent.symm.trans (hspared A hA)) Bool.false_ne_true
      · exact hstate
  | removes hfound hremoving hchannel hsame =>
      rw [Dict.get_erase]
      split
      · next heq =>
          obtain rfl := Option.some.inj (hstate.symm.trans (heq ▸ hfound))
          exact (hremoved _ hremoving hsame).elim
      · exact hstate
  | deletes hremoving hchannel htoken hunder =>
      rw [Dict.get_erase]
      split
      · next heq =>
          obtain ⟨A, hA, hsame⟩ := hunder horderly (hintime _ htoken) state (heq ▸ hstate)
          obtain rfl := Option.mem_some.mp hA
          exact (hremoved _ hremoving hsame).elim
      · exact hstate

omit [DecidableEq Thread] in
/-- No process that was started under another token is signalled. -/
theorem process_of_promise {process : ProcessId} {instance' : Option ProcessId} {kill : Bool}
    {choice : Choice} (hinv : S.Inv s) (hdraws : DrawsTokens S.requests)
    (hcarries : (S.requests t).Carries token) (hreal : token ≠ [])
    (hpromise : S.Promise t s (.killpg process instance' kill))
    (hfinds : FindsItsOwn t s (.killpg process instance' kill) choice)
    (hnames : (Cmd.killpg process instance' kill : Cmd Thread).namesInstance = true)
    {e : Spawned Thread} (he : e ∈ s.spawned) {params : StartParams}
    (hparams : S.requests e.thread = .startBuffer params) (hne : params.token ≠ token)
    (hrunning : s.running e.process = true) : e.process.1 ≠ process.1 := by
  intro hpid
  have hsame : e.process = process := by
    have hticks := World.running_iff.mp hrunning
    rw [hpid] at hticks
    exact Prod.ext hpid (hfinds _ hticks)
  obtain ⟨q, rfl⟩ := Option.isSome_iff_exists.mp hnames
  rcases hpromise.2 with ⟨A, ⟨⟨_, hremoves⟩, hseen⟩, hprocess⟩ | ⟨e', he', hthread, hprocess⟩
  · obtain ⟨R, hR, htoken, hof⟩ := hinv.seen hseen
    obtain ⟨params', hparams', hown⟩ :=
      hinv.token_of_process he hR (hsame.trans (hprocess.symm.trans hof.symm))
    obtain rfl := Op.startBuffer.inj (hparams.symm.trans hparams')
    have hcurrent := hinv.token_of_current hdraws hreal hseen (removes_current hcarries hremoves)
    exact hne (Option.some.inj (hown.symm.trans (htoken.trans hcurrent)))
  · obtain rfl := hinv.byProcess e he e' he' (hsame.trans hprocess.symm)
    rw [← hthread, hparams] at hcarries
    exact hcarries

omit [DecidableEq Thread] in
/-- A manifest that is answered is made from what the token's instance has written. -/
theorem manifest_of_promise {manifest : Manifest} {writers : List ProcessId} (hinv : S.Inv s)
    (hclean : S.CleanReads) (hdraws : DrawsTokens S.requests) (hreal : token ≠ [])
    (hpromise : S.Promise t s (.answerManifest (some token) manifest writers)) :
    ∃ A ∈ s.registered, A.accessToken = some token ∧ ∀ w ∈ writers, w = A.process := by
  obtain ⟨R, hR, hcurrent, hwritten⟩ := hpromise
  exact ⟨R, hR, hinv.token_of_current hdraws hreal ⟨R, hR, .refl R⟩ hcurrent, hwritten hclean⟩

end Setting

/-! ## every run -/

/-- **A token stays behind**: in every run whose steps are in time and find what is their
own, no step of a request with one instance's token reaches another instance. -/
theorem token_stays_behind (py : Python) (maxConcurrent : Nat) (requests : Thread → Op)
    {w : World Thread} {es : List (Event Thread Choice Env)} {t : Thread} {choice : Choice}
    {c c' : Setting.PluginConfig Thread} {token : Text} (hw : Setting.Starts true w)
    (hdraws : DrawsTokens requests) (hcarries : (requests t).Carries token) (hreal : token ≠ [])
    (hintime : Meets (plugin py maxConcurrent requests).step (Taken InTime)
      { world := w } (es ++ [.steps t choice]))
    (hfinds : Meets (plugin py maxConcurrent requests).step (Taken FindsItsOwn)
      { world := w } (es ++ [.steps t choice]))
    (hrun : run (plugin py maxConcurrent requests).step { world := w } es = some c)
    (hstep : (plugin py maxConcurrent requests).step c (.steps t choice) = some c') :
    ∃ cmd next, c.left t = some (.call cmd next) ∧
      KeepsToToken requests c.world c'.world cmd token := by
  have hsteps := (hintime.and hfinds).mono fun c e h => h.1.and h.2
  obtain ⟨hbefore, htaken, -⟩ := hsteps.append hrun
  have horderly : (tokenSetting py maxConcurrent requests).Orderly :=
    Setting.orderly_of_inTime rfl fun _ _ _ _ h => h.1
  have hclean : (tokenSetting py maxConcurrent requests).CleanReads :=
    Setting.cleanReads_of_findsItsOwn hdraws fun _ _ _ _ h => h.2
  have hinvariant := Setting.invariant_of_holds
    (S := tokenSetting py maxConcurrent requests) (J := Setting.AllDistinct)
    (fun _ _ _ _ h => h) (fun _ _ _ htaken heffect h => h.of_effect htaken.1 heffect)
    (fun _ henv h => h.env henv) (Setting.holds_start hw)
    (fun R hR => by simp [hw.registered] at hR) hbefore hrun
  obtain ⟨hholds, hdistinct⟩ := hinvariant
  simp only [Machine.step] at hstep
  split at hstep
  · next cmd next hleft =>
      obtain ⟨⟨w', r⟩, hexec, rfl⟩ := Option.map_eq_some_iff.mp hstep
      have hpromise : (tokenSetting py maxConcurrent requests).Promise t c.world cmd :=
        hholds.promise hleft
      obtain ⟨hin, hown⟩ := htaken cmd next hleft
      refine ⟨cmd, next, hleft, fun channelUuid state other hstate hother hne => ?_, ?_, ?_⟩
      · exact Setting.state_of_effect horderly hholds.inv hdistinct hdraws hcarries hreal hpromise
          hin (World.exec_effect hexec) hstate hother hne
      · rintro process instance' kill rfl e he params hparams hne hrunning
        have hnames := Machine.calls_of_run (calls_of_carries py maxConcurrent hcarries) hrun hleft
        exact Setting.process_of_promise hholds.inv hdraws hcarries hreal hpromise hown hnames.1
          he hparams hne hrunning
      · rintro manifest writers rfl
        exact Setting.manifest_of_promise hholds.inv hclean hdraws hreal hpromise
  · contradiction

/-! ## a manifest that is late -/

section Late

instance decidableReadsOwn (s : World Thread) : (q : Query) → Decidable (s.ReadsOwn q)
  | .playlistText path instance' =>
      inferInstanceAs (Decidable (∀ dir ∈ s.dirs path, ∀ w ∈ dir.writers, w = instance'))
  | .segmentSize path _ instance' =>
      inferInstanceAs (Decidable (∀ dir ∈ s.dirs path, ∀ w ∈ dir.writers, w = instance'))
  | .state _ | .scanned _ | .lock _ | .sharedNow | .procStartTicks _ | .isProcessAlive _
  | .beforeDeadline | .channelDirs _ | .oldEnough _ | .ownerFile _ | .startedLongAgo _
  | .playlistStat _ | .ffmpegLog _ | .cachedManifest .. => .isTrue trivial

instance decidableFindsItsOwn (t : Thread) (s : World Thread) :
    (c : Cmd Thread) → (choice : Choice) → Decidable (FindsItsOwn t s c choice)
  | .query q, _ => decidableReadsOwn s q
  | .killpg process _ _, _ =>
      inferInstanceAs (Decidable (∀ ticks ∈ s.processes process.1, ticks = process.2))
  | .setState .., _ | .casState .., _ | .cadState .., _ | .deleteState .., _ | .scan, _
  | .acquireLock _, _ | .releaseLock .., _ | .renewLock .., _ | .deleteLock .., _
  | .expireLock .., _ | .moveAside .., _ | .mkdir _, _ | .popen _, _ | .writeOwnerTmp .., _
  | .unlinkOwnerTmp _, _ | .replaceOwner .., _ | .idle .., _ | .rememberManifest .., _
  | .answerManifest .., _ => .isTrue trivial

/-- A start, a manifest asked for by its viewer, and a start by another viewer. -/
def overtaken : Nat → Op
  | 0 => loneStart
  | 1 => .getLiveManifest 0 (requestOf "v".toList)
  | 2 => replaced 2
  | _ => .stopAll

theorem drawsTokens_overtaken : DrawsTokens overtaken where
  drawn
    | 0, _, rfl | 2, _, rfl => by decide
    | _ + 3, _, h => nomatch h
  distinct
    | 0, 0, _, _, _, _, _ | 2, 2, _, _, _, _, _ => rfl
    | 0, 2, _, _, rfl, rfl, h | 2, 0, _, _, rfl, rfl, h => absurd h (by decide)
    | _ + 3, _, _, _, h, _, _ | _, _ + 3, _, _, _, h, _ => nomatch h

/-- A playlist of one segment, and the segment. -/
def oneSegment : ChannelDir where
  playlist := some
    { mtimeNs := 1
      size := 33
      lines := ["#EXTM3U".toList, "#EXTINF:2.0,".toList, "seg0.ts".toList] }
  files name := if name = "seg0.ts".toList then some 188 else none

/-- An `ffmpeg` of the channel writes them. -/
def writesSegment (process : ProcessId) : Event Nat Choice Env :=
  .world (.ffmpegWrites process ("/data/timeshift".toList, "c".toList) oneSegment)

/-- The first buffer's `ffmpeg` exits, and the other viewer's start replaces the buffer. -/
def takesOver : List (Event Nat Choice Env) :=
  .world (.exit 2) :: .begins 2 :: goOn 2 15 ++ .steps 2 { process := (3, 0) } :: goOn 2 11

/-- The first buffer is replaced behind the request's check of its token, up to the answer. -/
def overtakenRead : List (Event Nat Choice Env) :=
  .begins 0 :: goOn 0 22 ++ .begins 1 :: goOn 1 1 ++ takesOver ++ writesSegment (3, 0) :: goOn 1 8

/-- What is answered to whom, and from whose writing. -/
structure Answered where
  suppliedToken : Option Text
  segments : List Text
  writers : List ProcessId
deriving DecidableEq

/-- The manifest the request is about to answer. -/
def answered (c : Setting.PluginConfig Nat) : Option Answered :=
  match c.left 1 with
  | some (.call (.answerManifest suppliedToken manifest writers) _) =>
      some ⟨suppliedToken, manifest.segments.map (·.filename), writers⟩
  | _ => none

theorem answered_eq_some {c : Setting.PluginConfig Nat} {found : Answered}
    (h : answered c = some found) :
    ∃ manifest next, c.left 1 =
      some (.call (.answerManifest found.suppliedToken manifest found.writers) next) := by
  simp only [answered] at h
  split at h
  · next suppliedToken manifest writers next hleft =>
      obtain rfl := Option.some.inj h
      exact ⟨manifest, next, hleft⟩
  · contradiction

/-- The first viewer is answered a manifest of what the other buffer has written. -/
theorem overtakenRead_answers :
    ¬ ∀ (py : Python) (maxConcurrent : Nat) (requests : Nat → Op) (w : World Nat)
      (es : List (Event Nat Choice Env)) (t : Nat) (choice : Choice)
      (c c' : Setting.PluginConfig Nat) (token : Text),
      Setting.Starts true w → DrawsTokens requests → (requests t).Carries token → token ≠ [] →
      run (plugin py maxConcurrent requests).step { world := w } es = some c →
      (plugin py maxConcurrent requests).step c (.steps t choice) = some c' →
      ∃ cmd next, c.left t = some (.call cmd next) ∧
        KeepsToToken requests c.world c'.world cmd token := by
  intro hall
  have hseen : ((run (plugin numberless 1 overtaken).step { world := {} } overtakenRead).bind
      fun c => ((plugin numberless 1 overtaken).step c (.steps 1 {})).map fun _ =>
        (answered c, c.world.registered.map fun R => (R.accessToken, R.process))) =
      some (some ⟨some "a".toList, ["seg0.ts".toList], [(3, 0), (3, 0)]⟩,
        [(some "b".toList, (3, 0)), (some "a".toList, (2, 0))]) := by
    decide +kernel
  obtain ⟨c, hrun, hseen⟩ := Option.bind_eq_some_iff.mp hseen
  obtain ⟨c', hstep, hseen⟩ := Option.map_eq_some_iff.mp hseen
  simp only [Prod.mk.injEq] at hseen
  obtain ⟨hanswered, hregistered⟩ := hseen
  obtain ⟨manifest, next, hleft⟩ := answered_eq_some hanswered
  obtain ⟨cmd, next', hleft', hkeeps⟩ := hall numberless 1 overtaken {} overtakenRead 1 {} c c'
    "a".toList Setting.starts_empty drawsTokens_overtaken rfl (by decide) hrun hstep
  cases hleft.symm.trans hleft'
  obtain ⟨A, hA, htoken, hwriters⟩ := hkeeps.manifest manifest _ rfl
  have hprocess : A.process = (3, 0) := (hwriters (3, 0) (by simp)).symm
  have hown : (A.accessToken, A.process) ∈ c.world.registered.map fun R =>
      (R.accessToken, R.process) := List.mem_map.mpr ⟨A, hA, rfl⟩
  rw [hregistered, htoken, hprocess] at hown
  revert hown
  decide

/-- The same where the first buffer is replaced when its files have been read. -/
def ownRead : List (Event Nat Choice Env) :=
  .begins 0 :: goOn 0 22 ++ writesSegment (2, 0) :: .begins 1 :: goOn 1 8 ++ takesOver ++ goOn 1 1

theorem token_stays_behind_ownRead :
    ∃ c c' found cmd next,
      run (plugin numberless 1 overtaken).step { world := {} } ownRead = some c ∧
      (plugin numberless 1 overtaken).step c (.steps 1 {}) = some c' ∧
      answered c = some found ∧ found.segments = ["seg0.ts".toList] ∧
      c.left 1 = some (.call cmd next) ∧
      KeepsToToken overtaken c.world c'.world cmd "a".toList := by
  have hseen : ((run (plugin numberless 1 overtaken).step { world := {} } ownRead).bind
      fun c => ((plugin numberless 1 overtaken).step c (.steps 1 {})).map fun _ => answered c) =
      some (some ⟨some "a".toList, ["seg0.ts".toList], [(2, 0), (2, 0)]⟩) := by
    decide +kernel
  obtain ⟨c, hrun, hseen⟩ := Option.bind_eq_some_iff.mp hseen
  obtain ⟨c', hstep, hanswered⟩ := Option.map_eq_some_iff.mp hseen
  obtain ⟨cmd, next, hleft, hkeeps⟩ := token_stays_behind numberless 1 overtaken
    Setting.starts_empty drawsTokens_overtaken (t := 1) rfl (by decide) (by decide +kernel)
    (by decide +kernel) hrun hstep
  exact ⟨c, c', _, cmd, next, hrun, hstep, hanswered, rfl, hleft, hkeeps⟩

end Late

end TimeshiftBuffer

end DispatcharrPvr
