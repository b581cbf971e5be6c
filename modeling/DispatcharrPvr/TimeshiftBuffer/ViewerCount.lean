import DispatcharrPvr.TimeshiftBuffer.StartLimit

/-!
# TimeshiftBuffer.ViewerCount

Who is listed as a viewer of one buffer, whatever the interleaving: a viewer stays
listed until its own stop, the buffer's end or a prune that finds its heartbeat
unchanged, and one that has stopped comes back by a start of its own.

A read drops a new viewer's id where the list is full before it looks whether that
viewer has stopped, so a stopped viewer's read then refreshes the buffer.
-/

namespace DispatcharrPvr

namespace TimeshiftBuffer

open Interleaving Runs

variable {Thread : Type}

/-! ## what is counted -/

/-- The viewer an operation is for. -/
def Op.viewerId : Op → Option Text
  | .startBuffer params => params.viewerId
  | .stopBuffer request | .heartbeat request | .touchHeartbeat request
  | .getLiveManifest _ request => request.viewerId
  | .reaperTick _ | .scrubOrphanedBuffers _ | .stopAll => none

/-- The viewer that a read is for. -/
def Op.reader : Op → Option Text
  | .touchHeartbeat request => request.viewerId
  | _ => none

/-- The viewer that a start or stop is for. -/
def Op.comesOrGoes : Op → Option Text
  | .startBuffer params => params.viewerId
  | .stopBuffer request => request.viewerId
  | _ => none

/-- The stopping marker. -/
def BufferState.marker (state : BufferState) : Bool × Option Int :=
  (state.stopping, state.stoppingSince)

/-- What one step of an operation makes of a buffer's viewers. -/
structure CountsViewers (s : World Thread) (t : Thread) (op : Op) (channelUuid : Text)
    (old new : BufferState) : Prop where
  /-- A stop that names a viewer marks the buffer where nobody is listed. -/
  marks : ∀ request viewerId, op = .stopBuffer request → request.viewerId = some viewerId →
    new.marker ≠ old.marker → old.viewers = []
  /-- Its other write takes its viewer off the list, and records when. -/
  stops : ∀ request viewerId, op = .stopBuffer request → request.viewerId = some viewerId →
    new ≠ old → new.marker = old.marker → viewerId ∉ new.viewers ∧
      ∃ stoppedAt, stoppedAt ≤ s.clock ∧ new.stoppedViewers.get viewerId = some stoppedAt
  /-- A viewer that has stopped is put back by its own start only. -/
  stopped : ∀ viewerId stoppedAt, viewerId ∉ old.viewers →
    old.stoppedViewers.get viewerId = some stoppedAt → s.clock - stoppedAt < stoppedViewerTtl →
    (∀ params, op = .startBuffer params → params.viewerId ≠ some viewerId) →
      viewerId ∉ new.viewers ∧ (op.viewerId = some viewerId → new.lastHeartbeat = old.lastHeartbeat)
  /-- A viewer is taken off by its own stop, or by a prune that saw its heartbeat. -/
  listed : ∀ viewerId ∈ old.viewers, viewerId ∉ new.viewers →
    (∃ request, op = .stopBuffer request ∧ request.viewerId = some viewerId) ∨
      ∃ storagePath seen, op = .reaperTick storagePath ∧
        old.viewerHeartbeats.get viewerId = some seen ∧
          (t, channelUuid, some viewerId, seen) ∈ s.idled
  /-- A start's other write attaches its viewer, to a buffer that is not stopping. -/
  attaches : ∀ params, op = .startBuffer params → new ≠ old → new.marker = old.marker →
    old.stopping = false ∧ ∀ viewerId, viewerId ∈ new.viewers ↔
      viewerId ∈ old.viewers ∨ params.viewerId = some viewerId
  /-- A read adds nobody to a full list. -/
  reads : ∀ request, op = .touchHeartbeat request →
    new.viewers.length ≤ maxViewersAddedByReads ∨ new.viewers = old.viewers

/-- No update or delete loses its last try. -/
def WinsLastTry (_ : Thread) (s : World Thread) : Cmd Thread → Choice → Prop
  | .casState channelUuid expected _ _ 0, _ => s.states.get channelUuid = some expected
  | .cadState channelUuid expected _ 0, _ => s.states.get channelUuid = some expected
  | _, _ => True

/-- No read of a viewer that has stopped, and is not listed, is written to a full list. -/
def Uncrowded (requests : Thread → Op) (t : Thread) (s : World Thread) :
    Cmd Thread → Choice → Prop
  | .casState channelUuid expected _ _ _, _ =>
      s.states.get channelUuid = some expected →
        ∀ viewerId ∈ (requests t).reader, viewerId ∉ expected.viewers →
          wasStoppedRecently expected viewerId s.clock = true →
            expected.viewers.length < maxViewersAddedByReads
  | _, _ => True

/-- The step is no write of a start or stop of this viewer of the channel, a marker
apart. -/
def Away (requests : Thread → Op) (channelUuid viewerId : Text) (t : Thread)
    (_ : World Thread) : Cmd Thread → Choice → Prop
  | .casState channel _ _ none _, _ =>
      channel = channelUuid → (requests t).comesOrGoes ≠ some viewerId
  | _, _ => True

/-! ## the writes -/

theorem Dict.get_filter_of_get {α : Type} {d : Dict α} {p : Text × α → Bool} {k : Text} {v : α}
    (h : d.get k = some v) (hp : p (k, v) = true) : Dict.get (d.filter p) k = some v := by
  induction d with
  | nil => contradiction
  | cons e rest ih =>
      by_cases hek : e.1 = k
      · have hv : e.2 = v := by simpa [get, hek] using h
        have he : e = (k, v) := Prod.ext hek hv
        rw [List.filter_cons_of_pos (he ▸ hp)]
        simp [get, he]
      · have hrest : ∀ l : Dict α, get (e :: l) k = get l k := fun l => by
          simp [get, hek]
        rw [hrest] at h
        by_cases hpe : p e = true
        · rw [List.filter_cons_of_pos hpe, hrest, ih h]
        · rw [List.filter_cons_of_neg hpe, ih h]

namespace BufferState

variable {state new : BufferState} {now : Int} {viewerId viewer : Text}

@[simp] theorem mem_addViewer {viewers : List Text} :
    viewer ∈ addViewer viewers viewerId ↔ viewer ∈ viewers ∨ viewer = viewerId := by
  rw [addViewer]
  split
  · next hin =>
      exact ⟨.inl, fun h => h.elim id fun heq => heq ▸ hin⟩
  · simp

theorem wasStoppedRecently_of_get {stoppedAt : Int}
    (h : state.stoppedViewers.get viewer = some stoppedAt)
    (hrecent : now - stoppedAt < stoppedViewerTtl) : wasStoppedRecently state viewer now = true := by
  simpa [wasStoppedRecently, h] using hrecent

/-- A heartbeat of a viewer that has stopped is none. -/
theorem applyHeartbeat_of_stopped (hout : viewer ∉ state.viewers)
    (hrecent : wasStoppedRecently state viewer now = true) :
    applyHeartbeat state now (some viewer) = state := by
  simp [applyHeartbeat, hout, hrecent]

/-- Whatever a heartbeat does, it does to the stamps, and lists its viewer. -/
theorem applyHeartbeat_eq (state : BufferState) (now : Int) (viewer : Option Text) :
    (applyHeartbeat state now viewer).marker = state.marker ∧
      (applyHeartbeat state now viewer).stoppedViewers = state.stoppedViewers ∧
      ((applyHeartbeat state now viewer).viewers = state.viewers ∨
        ∃ v, viewer = some v ∧ (applyHeartbeat state now viewer).viewers =
          addViewer state.viewers v) := by
  cases viewer with
  | none => exact ⟨rfl, rfl, .inl rfl⟩
  | some v =>
      rw [applyHeartbeat]
      split
      · exact ⟨rfl, rfl, .inl rfl⟩
      · exact ⟨rfl, rfl, .inr ⟨v, rfl, rfl⟩⟩

end BufferState

namespace BufferState

theorem wasStoppedRecently_mono {state : BufferState} {viewer : Text} {now later : Int}
    (hle : now ≤ later) (h : wasStoppedRecently state viewer later = true) :
    wasStoppedRecently state viewer now = true := by
  simp only [wasStoppedRecently, Option.any_eq_true, decide_eq_true_eq] at h ⊢
  obtain ⟨stoppedAt, hget, hlt⟩ := h
  exact ⟨stoppedAt, hget, by omega⟩

end BufferState

section Counts

open BufferState

variable {s : World Thread} {t : Thread} {op : Op} {channelUuid : Text} {old new : BufferState}
  {now : Int}

theorem CountsViewers.refl (op : Op) (channelUuid : Text) (old : BufferState) :
    CountsViewers s t op channelUuid old old where
  marks _ _ _ _ hne := absurd rfl hne
  stops _ _ _ _ hne := absurd rfl hne
  stopped _ _ hout _ _ _ := ⟨hout, fun _ => rfl⟩
  listed _ hin hout := absurd hin hout
  attaches _ _ hne := absurd rfl hne
  reads _ _ := .inr rfl

/-- The write of a heartbeat, of a manifest's touch or of a read. -/
theorem counts_applyHeartbeat {viewer : Option Text} (hstart : ∀ params, op ≠ .startBuffer params)
    (hstop : ∀ request, op ≠ .stopBuffer request) (hnow : now ≤ s.clock)
    (hviewer : ∀ v, viewer = some v → op.viewerId = some v)
    (hstopped : ∀ v, op.viewerId = some v → v ∉ old.viewers →
      wasStoppedRecently old v s.clock = true → viewer = some v)
    (hreads : ∀ request, op = .touchHeartbeat request → ∀ v, viewer = some v →
      v ∈ old.viewers ∨ old.viewers.length < maxViewersAddedByReads) :
    CountsViewers s t op channelUuid old (applyHeartbeat old now viewer) := by
  obtain ⟨-, -, hviewers⟩ := applyHeartbeat_eq old now viewer
  have hkept : ∀ v ∈ old.viewers, v ∈ (applyHeartbeat old now viewer).viewers := by
    intro v hin
    rcases hviewers with hsame | ⟨w, -, hadded⟩
    · rwa [hsame]
    · rw [hadded]
      exact mem_addViewer.mpr (.inl hin)
  have hsame : ∀ v stoppedAt, v ∉ old.viewers → old.stoppedViewers.get v = some stoppedAt →
      s.clock - stoppedAt < stoppedViewerTtl → op.viewerId = some v →
        applyHeartbeat old now viewer = old := by
    intro v stoppedAt hout hget hrecent hop
    have hwas := wasStoppedRecently_of_get hget hrecent
    rw [hstopped v hop hout hwas]
    exact applyHeartbeat_of_stopped hout (wasStoppedRecently_mono hnow hwas)
  refine ⟨fun request _ hop => absurd hop (hstop request),
    fun request _ hop => absurd hop (hstop request), ?_, fun v hin hout => absurd (hkept v hin) hout,
    fun params hop => absurd hop (hstart params), ?_⟩
  · intro v stoppedAt hout hget hrecent _
    refine ⟨fun hin => ?_, fun hop => by rw [hsame v stoppedAt hout hget hrecent hop]⟩
    rcases hviewers with heq | ⟨w, hw, hadded⟩
    · exact hout (heq ▸ hin)
    · rw [hadded, mem_addViewer] at hin
      obtain rfl := hin.resolve_left hout
      rw [hsame v stoppedAt hout hget hrecent (hviewer v hw)] at hadded
      exact hout (hadded ▸ mem_addViewer.mpr (.inr rfl))
  · intro request hop
    rcases hviewers with heq | ⟨w, hw, hadded⟩
    · exact .inr heq
    · by_cases hin : w ∈ old.viewers
      · rw [addViewer, if_pos hin] at hadded
        exact .inr hadded
      · have hroom := (hreads request hop w hw).resolve_left hin
        rw [hadded, addViewer, if_neg hin, List.length_append]
        exact .inl hroom

/-- A start's. -/
theorem counts_attach {params : StartParams} {viewerNow : Int} (hstopping : old.stopping = false) :
    CountsViewers s t (.startBuffer params) channelUuid old
      (attach old params.viewerId params.token now viewerNow) := by
  have hviewers : ∀ v, v ∈ (attach old params.viewerId params.token now viewerNow).viewers ↔
      v ∈ old.viewers ∨ params.viewerId = some v := by
    intro v
    cases hviewer : params.viewerId with
    | none => simp [attach]
    | some w =>
        simp only [attach, clearStoppedViewer, mem_addViewer, Option.some.injEq]
        exact or_congr_right eq_comm
  refine ⟨fun _ _ hop => (by cases hop), fun _ _ hop => (by cases hop), ?_, ?_, ?_,
    fun _ hop => (by cases hop)⟩
  · intro v stoppedAt hout _ _ hother
    have hne := hother params rfl
    exact ⟨fun hin => ((hviewers v).mp hin).elim hout hne, fun hop => absurd hop hne⟩
  · intro v hin hout
    exact absurd ((hviewers v).mpr (.inl hin)) hout
  · intro _ hop _ _
    obtain rfl := Op.startBuffer.inj hop
    exact ⟨hstopping, hviewers⟩

/-- A stop's own. -/
theorem counts_dropViewer {request : ViewerRequest} {viewerId : Text}
    (hviewer : request.viewerId = some viewerId) (hnow : now ≤ s.clock)
    (hnodup : old.viewers.Nodup)
    (hnew : dropViewer old viewerId request.suppliedToken now = some new) :
    CountsViewers s t (.stopBuffer request) channelUuid old new := by
  simp only [dropViewer] at hnew
  split at hnew
  · contradiction
  · obtain rfl := Option.some.inj hnew
    set dropped := if viewerId ∈ old.viewers then
        { old with
          viewers := old.viewers.erase viewerId
          viewerHeartbeats := Dict.erase old.viewerHeartbeats viewerId }
      else old with hdropped
    have hviewers : ∀ v, v ∈ dropped.viewers ↔ v ∈ old.viewers ∧ v ≠ viewerId := by
      intro v
      by_cases hin : viewerId ∈ old.viewers
      · rw [hdropped, if_pos hin]
        exact hnodup.mem_erase_iff.trans and_comm
      · rw [hdropped, if_neg hin]
        exact ⟨fun h => ⟨h, fun heq => hin (heq ▸ h)⟩, fun h => h.1⟩
    have hmarker : dropped.marker = old.marker := by
      rw [hdropped]
      split <;> rfl
    have hbeat : dropped.lastHeartbeat = old.lastHeartbeat := by
      rw [hdropped]
      split <;> rfl
    have hrecorded : ∀ state : BufferState,
        (recordStoppedViewer state viewerId now).stoppedViewers.get viewerId = some now := by
      intro state
      rw [recordStoppedViewer, Dict.get_set, if_pos rfl]
    refine ⟨fun _ _ _ _ hne => absurd hmarker hne, ?_, ?_, ?_, fun _ hop => (by cases hop),
      fun _ hop => (by cases hop)⟩
    · rintro _ v hop hv - -
      obtain rfl := Op.stopBuffer.inj hop
      obtain rfl := Option.some.inj (hv.symm.trans hviewer)
      exact ⟨fun hin => ((hviewers v).mp hin).2 rfl, now, hnow, hrecorded dropped⟩
    · exact fun v stoppedAt hout _ _ _ => ⟨fun hin => hout ((hviewers v).mp hin).1, fun _ => hbeat⟩
    · intro v hin hout
      refine .inl ⟨request, rfl, hviewer.trans (congrArg some ?_)⟩
      exact (Classical.not_not.mp fun hne => hout ((hviewers v).mpr ⟨hin, hne⟩)).symm

/-- A prune's. -/
theorem counts_dropStaleViewers {storagePath : Text} {stale : Dict Int}
    (hstale : ∀ e ∈ stale, (t, channelUuid, some e.1, e.2) ∈ s.idled)
    (hnew : dropStaleViewers old stale = some new) :
    CountsViewers s t (.reaperTick storagePath) channelUuid old new := by
  simp only [dropStaleViewers] at hnew
  split at hnew
  · contradiction
  · obtain rfl := Option.some.inj hnew
    refine ⟨fun _ _ hop => (by cases hop), fun _ _ hop => (by cases hop), ?_, ?_,
      fun _ hop => (by cases hop), fun _ hop => (by cases hop)⟩
    · exact fun v stoppedAt hout _ _ _ => ⟨fun hin => hout (List.mem_of_mem_filter hin), fun _ => rfl⟩
    · intro v hin hout
      have hgone := Classical.not_not.mp fun hnot =>
        hout (List.mem_filter.mpr ⟨hin, decide_eq_true hnot⟩)
      obtain ⟨e, he, rfl⟩ := List.mem_map.mp hgone
      obtain ⟨hmem, hsame⟩ := List.mem_filter.mp he
      rw [Bool.and_eq_true, beq_iff_eq] at hsame
      exact .inr ⟨storagePath, e.2, rfl, hsame.2, hstale e hmem⟩

/-- A marker written again is none. -/
theorem markStopping_of_marker (hmarker : (markStopping old now).marker = old.marker) :
    markStopping old now = old := by
  have hpair := Prod.mk.inj hmarker
  have hstopping : true = old.stopping := hpair.1
  have hsince : some now = old.stoppingSince := hpair.2
  simp [markStopping, hstopping, hsince]

/-- A marker's. -/
theorem counts_markStopping {state : BufferState} {abortIf : AbortIf}
    (hremoves : op.removes state abortIf) (habort : abortIf.holds old = false) :
    CountsViewers s t op channelUuid old (markStopping old now) where
  marks request viewerId hop hviewer _ := by
    subst hop
    obtain ⟨-, -, rfl⟩ := hremoves
    simpa [hviewer, AbortIf.holds] using habort
  stops _ _ _ _ hne hmarker := absurd (markStopping_of_marker hmarker) hne
  stopped _ _ hout _ _ _ := ⟨hout, fun _ => rfl⟩
  listed _ hin hout := absurd hin hout
  attaches _ _ hne hmarker := absurd (markStopping_of_marker hmarker) hne
  reads _ _ := .inr rfl

/-- Any write of an operation, where a read of a stopped viewer meets no full list. -/
theorem Changes.counts {instance' : Option ProcessId} (hnodup : old.viewers.Nodup)
    (huncrowded : ∀ viewerId ∈ op.reader, viewerId ∉ old.viewers →
      wasStoppedRecently old viewerId s.clock = true →
        old.viewers.length < maxViewersAddedByReads)
    (h : Changes s t op channelUuid old new instance') :
    CountsViewers s t op channelUuid old new := by
  cases h with
  | attaches hstopping => exact counts_attach hstopping
  | drops hviewer hnow hnew => exact counts_dropViewer hviewer hnow hnodup hnew
  | heartbeats hnow =>
      exact counts_applyHeartbeat (fun _ hop => by cases hop) (fun _ hop => by cases hop) hnow
        (fun _ h => h) (fun _ h _ _ => h) fun _ hop => by cases hop
  | touches hnow =>
      exact counts_applyHeartbeat (fun _ hop => by cases hop) (fun _ hop => by cases hop) hnow
        (fun _ h => h) (fun _ h _ _ => h) fun _ hop => by cases hop
  | @reads request old new now hnow hnew =>
      simp only [applyReadHeartbeat] at hnew
      split at hnew
      · contradiction
      · obtain rfl := Option.some.inj hnew
        refine counts_applyHeartbeat (fun _ hop => by cases hop) (fun _ hop => by cases hop) hnow
          (fun v hv => ?_) (fun v hv hout hwas => ?_) fun _ _ v hv => ?_
        · exact (Option.filter_eq_some_iff.mp hv).1
        · have hroom := huncrowded v hv hout hwas
          exact Option.filter_eq_some_iff.mpr ⟨hv, by simp [hroom]⟩
        · simpa using (Option.filter_eq_some_iff.mp hv).2
  | prunes hstale hnew => exact counts_dropStaleViewers hstale hnew
  | marks hremoves _ _ habort => exact counts_markStopping hremoves habort

/-- A marker changes no viewer. -/
theorem Changes.viewers_of_marks {p : ProcessId}
    (h : Changes s t op channelUuid old new (some p)) : new.viewers = old.viewers := by
  cases h with
  | marks => rfl

/-- What is recorded of a viewer that has stopped stays, save by its own start or stop. -/
theorem Changes.stoppedViewers {instance' : Option ProcessId} {viewerId : Text} {stoppedAt : Int}
    (hget : old.stoppedViewers.get viewerId = some stoppedAt)
    (hrecent : s.clock - stoppedAt < stoppedViewerTtl)
    (haway : instance' = none → op.comesOrGoes ≠ some viewerId)
    (h : Changes s t op channelUuid old new instance') :
    new.stoppedViewers.get viewerId = some stoppedAt := by
  cases h with
  | attaches =>
      next params now viewerNow _ _ _ =>
        have hne : params.viewerId ≠ some viewerId := haway rfl
        cases hviewer : params.viewerId with
        | none => simpa [attach] using hget
        | some w =>
            rw [hviewer] at hne
            have hother : viewerId ≠ w := fun heq => hne (congrArg some heq.symm)
            simp only [attach, clearStoppedViewer, Dict.get_erase, if_neg hother]
            exact hget
  | drops hviewer hnow hnew =>
      next request w now =>
        have hother : viewerId ≠ w := fun heq =>
          haway rfl (hviewer.trans (congrArg some heq.symm))
        simp only [dropViewer] at hnew
        split at hnew
        · contradiction
        · obtain rfl := Option.some.inj hnew
          have hsame : ∀ state : BufferState, state.stoppedViewers = old.stoppedViewers →
              (recordStoppedViewer state w now).stoppedViewers.get viewerId = some stoppedAt := by
            intro state hsame
            rw [recordStoppedViewer, Dict.get_set, if_neg hother, hsame]
            exact Dict.get_filter_of_get hget (decide_eq_true (by omega))
          apply hsame
          split <;> rfl
  | heartbeats => exact (congrArg (Dict.get · viewerId) (applyHeartbeat_eq ..).2.1).trans hget
  | touches => exact (congrArg (Dict.get · viewerId) (applyHeartbeat_eq ..).2.1).trans hget
  | reads _ hnew =>
      simp only [applyReadHeartbeat] at hnew
      split at hnew
      · contradiction
      · obtain rfl := Option.some.inj hnew
        exact (congrArg (Dict.get · viewerId) (applyHeartbeat_eq ..).2.1).trans hget
  | prunes _ hnew =>
      simp only [dropStaleViewers] at hnew
      split at hnew
      · contradiction
      · exact Option.some.inj hnew ▸ hget
  | marks => exact hget

end Counts

/-! ## one step -/

variable [DecidableEq Thread]

/-- Redis runs scripts, and no last try is lost. -/
def viewerSetting (py : Python) (maxConcurrent : Nat) (requests : Thread → Op) :
    Setting Thread where
  py := py
  maxConcurrent := maxConcurrent
  requests := requests
  scripts := true
  supposed := WinsLastTry

omit [DecidableEq Thread] in
theorem viewerSetting_guarded (py : Python) (maxConcurrent : Nat) (requests : Thread → Op) :
    (viewerSetting py maxConcurrent requests).Guarded where
  scripts := rfl
  lastCas _ _ _ _ _ _ _ h := h
  lastCad _ _ _ _ _ _ h _ := h

namespace Setting

variable {S : Setting Thread} {s s' : World Thread} {t : Thread} {cmd : Cmd Thread}
  {channelUuid : Text} {old new : BufferState}

/-- A step as promised counts the viewers of each buffer. -/
theorem counts_of_effect {choice : Choice} (hguarded : S.Guarded) (hinv : S.Inv s)
    (hpromise : S.Promise t s cmd) (huncrowded : Uncrowded S.requests t s cmd choice)
    (heffect : World.Effect t s cmd s') (hold : s.states.get channelUuid = some old)
    (hnew : s'.states.get channelUuid = some new) (hprocess : new.process = old.process) :
    CountsViewers s t (S.requests t) channelUuid old new := by
  have hafter := statesAfter_of_effect hguarded hpromise heffect
  have hsame : s.states.get channelUuid = some new →
      CountsViewers s t (S.requests t) channelUuid old new := fun h =>
    Option.some.inj (hold.symm.trans h) ▸ .refl ..
  generalize s'.states = states at hafter hnew
  cases hafter with
  | same => exact hsame hnew
  | registers hregisters =>
      rw [Dict.get_set] at hnew
      split at hnew
      · obtain rfl := Option.some.inj hnew
        obtain ⟨-, R, hR, hcontinues⟩ := hinv.tracked _ _ hold
        exact absurd (hcontinues.process.symm.trans hprocess.symm) (hregisters.fresh hinv hR)
      · exact hsame hnew
  | changes hfound hchanges =>
      rw [Dict.get_set] at hnew
      split at hnew
      · next heq =>
          subst heq
          obtain rfl := Option.some.inj (hold.symm.trans hfound)
          obtain rfl := Option.some.inj hnew
          exact hchanges.counts (hinv.viewers hguarded _ _ hold) (huncrowded hfound)
      · exact hsame hnew
  | removes | deletes =>
      rw [Dict.get_erase] at hnew
      split at hnew
      · contradiction
      · exact hsame hnew

/-- While this instance is tracked and its viewer's stop is recent, the viewer is
not listed, and its stop is recorded. -/
structure StaysStopped (process : ProcessId) (channelUuid viewerId : Text) (stoppedAt : Int)
    (s : World Thread) : Prop where
  registered : ∃ R ∈ s.registered, R.process = process
  stays : ∀ state, s.states.get channelUuid = some state → state.process = process →
    s.clock - stoppedAt < stoppedViewerTtl →
      viewerId ∉ state.viewers ∧ state.stoppedViewers.get viewerId = some stoppedAt

variable {process : ProcessId} {viewerId : Text} {stoppedAt : Int}

/-- A step as promised keeps it so. -/
theorem StaysStopped.of_effect {choice : Choice}
    (h : StaysStopped process channelUuid viewerId stoppedAt s) (hguarded : S.Guarded)
    (hinv : S.Inv s) (hpromise : S.Promise t s cmd)
    (huncrowded : Uncrowded S.requests t s cmd choice)
    (haway : Away S.requests channelUuid viewerId t s cmd choice)
    (heffect : World.Effect t s cmd s') (hclock : s'.clock = s.clock)
    (hregistered : ∀ R ∈ s.registered, R ∈ s'.registered) :
    StaysStopped process channelUuid viewerId stoppedAt s' := by
  obtain ⟨R, hR, hprocess⟩ := h.registered
  refine ⟨⟨R, hregistered R hR, hprocess⟩, fun state hstate hof hrecent => ?_⟩
  rw [hclock] at hrecent
  have hafter := statesAfter_of_effect hguarded hpromise heffect
  generalize s'.states = states at hafter hstate
  cases hafter with
  | same => exact h.stays state hstate hof hrecent
  | registers hregisters =>
      rw [Dict.get_set] at hstate
      split at hstate
      · obtain rfl := Option.some.inj hstate
        exact absurd (hprocess.trans hof.symm) (hregisters.fresh hinv hR)
      · exact h.stays state hstate hof hrecent
  | @changes channel old new instance' triesLeft hfound hchanges =>
      rw [Dict.get_set] at hstate
      split at hstate
      · next heq =>
          subst heq
          obtain rfl := Option.some.inj hstate
          obtain ⟨hout, hget⟩ :=
            h.stays old hfound (hchanges.continues.process.symm.trans hof) hrecent
          have hsteps : instance' = none → (S.requests t).comesOrGoes ≠ some viewerId := by
            rintro rfl
            exact haway rfl
          refine ⟨fun hin => ?_, hchanges.stoppedViewers hget hrecent hsteps⟩
          have hcounts := hchanges.counts (hinv.viewers hguarded _ _ hfound) (huncrowded hfound)
          cases hinstance : instance' with
          | none =>
              refine (hcounts.stopped viewerId stoppedAt hout hget hrecent ?_).1 hin
              intro params hop hviewer
              exact hsteps hinstance (by rw [hop]; exact hviewer)
          | some p => exact hout ((hinstance ▸ hchanges).viewers_of_marks ▸ hin)
      · exact h.stays state hstate hof hrecent
  | removes | deletes =>
      rw [Dict.get_erase] at hstate
      split at hstate
      · contradiction
      · exact h.stays state hstate hof hrecent

/-- And so does what happens by itself. -/
theorem StaysStopped.env {e : Env}
    (h : StaysStopped process channelUuid viewerId stoppedAt s) (hinv : S.Inv s)
    (henv : s.env e = some s') : StaysStopped process channelUuid viewerId stoppedAt s' := by
  obtain ⟨R, hR, hprocess⟩ := h.registered
  -- the thread that registered it relies on as much as is needed here
  obtain ⟨spawned, -⟩ := hinv.registered R hR
  have hrely : S.Rely spawned.thread s s' := Rely.env henv
  refine ⟨⟨R, hrely.registered R hR, hprocess⟩, fun state hstate hof hrecent => ?_⟩
  have hclock := hrely.clock
  have hbefore : s.states.get channelUuid = some state := by
    rcases states_of_env henv with hsame | ⟨channel, herase⟩
    · exact hsame ▸ hstate
    · rw [herase, Dict.get_erase] at hstate
      split at hstate
      · contradiction
      · exact hstate
  exact h.stays state hbefore hof (by omega)

end Setting

/-! ## every run -/

section Runs

/-- **Viewers are counted** in every run in which no read of a stopped viewer meets a
full list: what each step makes of a buffer's viewers, and that a viewer that has
stopped stays away until its own next start. -/
theorem viewers_counted (py : Python) (maxConcurrent : Nat) (requests : Thread → Op)
    {w : World Thread} {es es' : List (Event Thread Choice Env)}
    {c c' : Setting.PluginConfig Thread} (hw : Setting.Starts true w)
    (hraces : Meets (plugin py maxConcurrent requests).step (Taken WinsLastTry)
      { world := w } (es ++ es'))
    (huncrowded : Meets (plugin py maxConcurrent requests).step (Taken (Uncrowded requests))
      { world := w } (es ++ es'))
    (hrun : run (plugin py maxConcurrent requests).step { world := w } es = some c)
    (hrun' : run (plugin py maxConcurrent requests).step c es' = some c') :
    (∀ t choice, es' = [.steps t choice] → ∀ channelUuid old new,
      c.world.states.get channelUuid = some old → c'.world.states.get channelUuid = some new →
        new.process = old.process → CountsViewers c.world t (requests t) channelUuid old new) ∧
    ∀ channelUuid viewerId stoppedAt old new, c.world.states.get channelUuid = some old →
      viewerId ∉ old.viewers → old.stoppedViewers.get viewerId = some stoppedAt →
      Meets (plugin py maxConcurrent requests).step
        (Taken (Away requests channelUuid viewerId)) c es' →
      c'.world.states.get channelUuid = some new → new.process = old.process →
      c'.world.clock - stoppedAt < stoppedViewerTtl →
        viewerId ∉ new.viewers ∧ new.stoppedViewers.get viewerId = some stoppedAt := by
  obtain ⟨hracesBefore, hracesAfter⟩ := hraces.append hrun
  obtain ⟨-, huncrowdedAfter⟩ := huncrowded.append hrun
  have hholds := Setting.holds_of_run (S := viewerSetting py maxConcurrent requests) hw
    hracesBefore hrun
  refine ⟨?_, ?_⟩
  · rintro t choice rfl channelUuid old new hold hnew hprocess
    obtain ⟨m, hstep, hend⟩ := run_cons_eq_some_iff.mp hrun'
    obtain rfl := Option.some.inj hend
    simp only [Machine.step] at hstep
    split at hstep
    · next cmd next hleft =>
        obtain ⟨⟨w', r⟩, hexec, rfl⟩ := Option.map_eq_some_iff.mp hstep
        exact Setting.counts_of_effect (viewerSetting_guarded py maxConcurrent requests)
          hholds.inv (hholds.promise hleft) (huncrowdedAfter.1 cmd next hleft)
          (World.exec_effect hexec) hold hnew hprocess
    · contradiction
  · intro channelUuid viewerId stoppedAt old new hold hout hget haway hnew hprocess hrecent
    obtain ⟨-, R, hR, hcontinues⟩ := hholds.inv.tracked _ _ hold
    have hstarts : Setting.StaysStopped old.process channelUuid viewerId stoppedAt c.world :=
      ⟨⟨R, hR, hcontinues.process.symm⟩, fun state hstate _ _ => by
        obtain rfl := Option.some.inj (hold.symm.trans hstate)
        exact ⟨hout, hget⟩⟩
    have hsteps := ((hracesAfter.and huncrowdedAfter).and haway).mono fun c e h =>
      (h.1.1.and h.1.2).and h.2
    have hstays := Setting.invariant_of_holds
      (J := Setting.StaysStopped old.process channelUuid viewerId stoppedAt)
      (fun _ _ _ _ h => h.1.1)
      (fun hinv _ hpromise htaken heffect h => h.of_effect
        (viewerSetting_guarded py maxConcurrent requests) hinv hpromise htaken.1.2 htaken.2
        heffect heffect.clock heffect.registered_mono)
      (fun hinv henv h => h.env hinv henv) hholds hstarts hsteps hrun'
    exact hstays.2.stays new hnew hprocess hrecent

end Runs

/-! ## a crowded buffer -/

section Crowd

instance decidableWinsLastTry (t : Thread) (s : World Thread) :
    (c : Cmd Thread) → (choice : Choice) → Decidable (WinsLastTry t s c choice)
  | .casState channelUuid expected _ _ 0, _ =>
      inferInstanceAs (Decidable (s.states.get channelUuid = some expected))
  | .cadState channelUuid expected _ 0, _ =>
      inferInstanceAs (Decidable (s.states.get channelUuid = some expected))
  | .casState _ _ _ _ (_ + 1), _ | .cadState _ _ _ (_ + 1), _ | .setState .., _ | .query _, _
  | .deleteState .., _ | .scan, _ | .acquireLock _, _ | .releaseLock .., _ | .renewLock .., _
  | .deleteLock .., _ | .expireLock .., _ | .moveAside .., _ | .mkdir _, _ | .popen _, _
  | .killpg .., _ | .writeOwnerTmp .., _ | .unlinkOwnerTmp _, _ | .replaceOwner .., _
  | .idle .., _ | .rememberManifest .., _ | .answerManifest .., _ => .isTrue trivial

instance decidableUncrowded (requests : Thread → Op) (t : Thread) (s : World Thread) :
    (c : Cmd Thread) → (choice : Choice) → Decidable (Uncrowded requests t s c choice)
  | .casState channelUuid expected _ _ _, _ =>
      inferInstanceAs (Decidable (s.states.get channelUuid = some expected →
        ∀ viewerId ∈ (requests t).reader, viewerId ∉ expected.viewers →
          wasStoppedRecently expected viewerId s.clock = true →
            expected.viewers.length < maxViewersAddedByReads))
  | .cadState .., _ | .setState .., _ | .query _, _
  | .deleteState .., _ | .scan, _ | .acquireLock _, _ | .releaseLock .., _ | .renewLock .., _
  | .deleteLock .., _ | .expireLock .., _ | .moveAside .., _ | .mkdir _, _ | .popen _, _
  | .killpg .., _ | .writeOwnerTmp .., _ | .unlinkOwnerTmp _, _ | .replaceOwner .., _
  | .idle .., _ | .rememberManifest .., _ | .answerManifest .., _ => .isTrue trivial

instance decidableAway (requests : Thread → Op) (channelUuid viewerId : Text) (t : Thread)
    (s : World Thread) :
    (c : Cmd Thread) → (choice : Choice) → Decidable (Away requests channelUuid viewerId t s c choice)
  | .casState channel _ _ none _, _ =>
      inferInstanceAs (Decidable (channel = channelUuid →
        (requests t).comesOrGoes ≠ some viewerId))
  | .casState _ _ _ (some _) _, _ | .cadState .., _ | .setState .., _ | .query _, _
  | .deleteState .., _ | .scan, _ | .acquireLock _, _ | .releaseLock .., _ | .renewLock .., _
  | .deleteLock .., _ | .expireLock .., _ | .moveAside .., _ | .mkdir _, _ | .popen _, _
  | .killpg .., _ | .writeOwnerTmp .., _ | .unlinkOwnerTmp _, _ | .replaceOwner .., _
  | .idle .., _ | .rememberManifest .., _ | .answerManifest .., _ => .isTrue trivial

/-- What a viewer of the channel asks for. -/
def requestOf (viewerId : Text) : ViewerRequest where
  channelUuid := "c".toList
  viewerId := some viewerId
  suppliedToken := some "a".toList

/-- A viewer starts the buffer, 32 more join it, the first one stops, and a read of
its own comes late. -/
def crowd : Nat → Op
  | 0 => loneStart
  | 33 => .stopBuffer (requestOf "v".toList)
  | 34 => .touchHeartbeat (requestOf "v".toList)
  | n => .heartbeat (requestOf [Char.ofNat (256 + n)])

/-- So many steps of an operation. -/
def stepsOf (t n : Nat) : List (Event Nat Choice Env) :=
  .begins t :: List.replicate n (.steps t {})

/-- Up to the late read's write. -/
def crowdSteps : List (Event Nat Choice Env) :=
  stepsOf 0 20 ++ (List.range' 1 32).flatMap (stepsOf · 3) ++ stepsOf 33 4 ++
    .world (.tick 1) :: stepsOf 34 2

/-- What is looked at of a buffer and its first viewer. -/
structure Look where
  process : ProcessId
  lastHeartbeat : Int
  listed : Bool
  stoppedAt : Option Int
deriving DecidableEq

/-- The channel's buffer, looked at. -/
def lookAt (c : Setting.PluginConfig Nat) : Option Look :=
  (c.world.states.get "c".toList).map fun state =>
    { process := state.process
      lastHeartbeat := state.lastHeartbeat
      listed := decide ("v".toList ∈ state.viewers)
      stoppedAt := state.stoppedViewers.get "v".toList }

/-- A late read of a stopped viewer refreshes a buffer with 32 viewers. -/
theorem crowdedRead_refreshes :
    ¬ ∀ (py : Python) (maxConcurrent : Nat) (requests : Nat → Op) (w : World Nat)
      (es : List (Event Nat Choice Env)) (t : Nat) (choice : Choice)
      (c c' : Setting.PluginConfig Nat) (channelUuid : Text) (old new : BufferState),
      Setting.Starts true w →
      Meets (plugin py maxConcurrent requests).step (Taken WinsLastTry) { world := w }
        (es ++ [.steps t choice]) →
      run (plugin py maxConcurrent requests).step { world := w } es = some c →
      (plugin py maxConcurrent requests).step c (.steps t choice) = some c' →
      c.world.states.get channelUuid = some old → c'.world.states.get channelUuid = some new →
      new.process = old.process → CountsViewers c.world t (requests t) channelUuid old new := by
  intro hall
  have hseen : ((run (plugin numberless 1 crowd).step { world := {} } crowdSteps).bind fun c =>
      ((plugin numberless 1 crowd).step c (.steps 34 {})).map fun c' =>
        (c.world.clock, lookAt c, lookAt c')) =
      some (1, some ⟨(2, 0), 0, false, some 0⟩, some ⟨(2, 0), 1, false, some 0⟩) := by
    decide +kernel
  obtain ⟨c, hrun, hseen⟩ := Option.bind_eq_some_iff.mp hseen
  obtain ⟨c', hstep, hseen⟩ := Option.map_eq_some_iff.mp hseen
  simp only [Prod.mk.injEq] at hseen
  obtain ⟨hclock, hlook, hlook'⟩ := hseen
  obtain ⟨old, hold, hlook⟩ := Option.map_eq_some_iff.mp hlook
  obtain ⟨new, hnew, hlook'⟩ := Option.map_eq_some_iff.mp hlook'
  simp only [Look.mk.injEq, decide_eq_false_iff_not] at hlook hlook'
  obtain ⟨hprocess, hbeat, hout, hget⟩ := hlook
  have hcounts := hall numberless 1 crowd {} crowdSteps 34 {} c c' _ old new
    Setting.starts_empty (by decide +kernel) hrun hstep hold hnew (hlook'.1.trans hprocess.symm)
  have hstays := (hcounts.stopped "v".toList 0 hout hget (by rw [hclock]; decide) nofun).2 rfl
  rw [hlook'.2.1, hbeat] at hstays
  exact absurd hstays (by decide)

/-- The same without the other viewers: the buffer stays as the stop left it. -/
def lateRead : Nat → Op
  | 0 => loneStart
  | 1 => .heartbeat (requestOf "u".toList)
  | 2 => .stopBuffer (requestOf "v".toList)
  | _ => .touchHeartbeat (requestOf "v".toList)

/-- Up to the stop of the one viewer, and from there to the late read's write. -/
def lateReadSteps : List (Event Nat Choice Env) × List (Event Nat Choice Env) :=
  (stepsOf 0 20 ++ stepsOf 1 3 ++ stepsOf 2 4, .world (.tick 1) :: stepsOf 3 3)

theorem viewers_counted_lateRead :
    ∃ c c' new, run (plugin numberless 1 lateRead).step { world := {} } lateReadSteps.1 = some c ∧
      run (plugin numberless 1 lateRead).step c lateReadSteps.2 = some c' ∧
      c'.world.states.get "c".toList = some new ∧ new.lastHeartbeat = 0 ∧
      "v".toList ∉ new.viewers ∧ new.stoppedViewers.get "v".toList = some 0 := by
  have hseen : ((run (plugin numberless 1 lateRead).step { world := {} } lateReadSteps.1).bind
      fun c => (run (plugin numberless 1 lateRead).step c lateReadSteps.2).map fun c' =>
        (decide (Meets (plugin numberless 1 lateRead).step
          (Taken (Away lateRead "c".toList "v".toList)) c lateReadSteps.2),
          c'.world.clock, lookAt c, lookAt c')) =
      some (true, 1, some ⟨(2, 0), 0, false, some 0⟩, some ⟨(2, 0), 0, false, some 0⟩) := by
    decide +kernel
  obtain ⟨c, hrun, hseen⟩ := Option.bind_eq_some_iff.mp hseen
  obtain ⟨c', hrun', hseen⟩ := Option.map_eq_some_iff.mp hseen
  simp only [Prod.mk.injEq, decide_eq_true_eq] at hseen
  obtain ⟨haway, hclock, hlook, hlook'⟩ := hseen
  obtain ⟨old, hold, hlook⟩ := Option.map_eq_some_iff.mp hlook
  obtain ⟨new, hnew, hlook'⟩ := Option.map_eq_some_iff.mp hlook'
  simp only [Look.mk.injEq, decide_eq_false_iff_not] at hlook hlook'
  refine ⟨c, c', new, hrun, hrun', hnew, hlook'.2.1, ?_⟩
  exact (viewers_counted numberless 1 lateRead Setting.starts_empty (by decide +kernel)
    (by decide +kernel) hrun hrun').2 _ _ 0 old new hold hlook.2.2.1 hlook.2.2.2 haway hnew
    (hlook'.1.trans hlook.1.symm) (by rw [hclock]; decide)

end Crowd

end TimeshiftBuffer

end DispatcharrPvr
