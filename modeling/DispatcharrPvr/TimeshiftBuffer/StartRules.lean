import DispatcharrPvr.TimeshiftBuffer.OperationRules

/-!
# TimeshiftBuffer.StartRules

A start conducts itself: from its locks, its count of the buffers and its renewals
it knows that it registers its buffer alone, and it stops the `ffmpeg` that it
does not register.
-/

namespace DispatcharrPvr

namespace TimeshiftBuffer

open Interleaving Interleaving.Program Interleaving.Discipline

namespace Setting

variable {Thread : Type} [DecidableEq Thread] {S : Setting Thread} {t : Thread}
  {P : World Thread → Prop} {α : Type}

/-! ## renewals -/

section Renewals

variable {name : LockName} {token : LockToken Thread}

/-- Since its last renewal the lock is still there, or has expired. -/
def Kept (S : Setting Thread) (name : LockName) (token : LockToken Thread) (s : World Thread) :
    Prop :=
  S.Guarded → s.locks name = some token ∨ token ∈ s.expired

theorem stable_kept (htoken : token.thread = t) : (conduct S).Stable t (S.Kept name token) := by
  intro s s' h hrely hguarded
  rcases h hguarded with hstored | hexpired
  · exact hrely.kept hguarded name token htoken hstored
  · exact .inr (hrely.expired token hexpired htoken)

/-- A token's expiry forgotten. -/
def renewed (s : World Thread) (token : LockToken Thread) : World Thread :=
  { s with expired := s.expired.filter (· ≠ token) }

/-- `_renew_start_buffer_lock`. -/
theorem keeps_renew (hP : (conduct S).Stable t P) (htoken : token.thread = t)
    (hown : ∀ s, P s → P (renewed s token)) :
    (conduct S).Keeps t P (renewStartBufferLock name token)
      (Ends P (fun held s => P s ∧ (held = true → S.Kept name token s)) fun _ => True) := by
  refine Keeps.tryExcept (B := fun r s => P s ∧ (r = .ok true → S.Kept name token s) ∧
      (r = .error .response → ¬ S.Guarded))
    (keeps_call hP (fun _ _ _ => htoken) ?_) (fun held s _ h => ?_) fun e => ?_
  · intro s choice s' r hinv hPs _ hexec _
    refine ⟨?_, fun hr _ => ?_, fun hr hguarded => ?_⟩
    · rcases World.script_effect hexec with rfl | rfl
      · exact hPs
      · exact hown s hPs
    · subst hr
      rcases World.script_eq_some hexec with ⟨-, rfl, h⟩ | ⟨-, h⟩ | ⟨-, -, h⟩
      · exact .inl (by simpa using h)
      · simp at h
      · simp at h
    · subst hr
      have hscripts := hinv.scripts.trans hguarded.scripts
      simp only [World.exec, World.script, hscripts, if_true, World.redis] at hexec
      split at hexec <;> simp at hexec
  · exact ⟨⟨h.1, fun hheld => h.2.1 (congrArg _ hheld)⟩, trivial⟩
  · by_cases he : e = .response
    · subst he
      rw [if_pos rfl]
      intro s hinv h
      have hunguarded := h.2.2 rfl
      suffices hrest : (conduct S).Keeps t P _ _ from hrest s hinv h.1
      refine Keeps.bind (keeps_mild (c := .query _) hP rfl fun _ _ _ => trivial)
        (fun current => ?_) fun e s _ h => h
      split
      · exact Keeps.done fun s _ h => ⟨⟨h.1, by simp⟩, trivial⟩
      · refine Keeps.pre (P := P) (Keeps.bind (B := fun _ s => P s)
          (keeps_call (c := .expireLock _ _) hP (fun _ _ _ => htoken) ?_) (fun _ =>
            Keeps.done fun s _ h => ⟨⟨h, fun _ hguarded => absurd hguarded hunguarded⟩, trivial⟩)
          fun e s _ h => h) fun s _ h => h.1
        intro s choice s' r _ hPs _ hexec _
        rcases World.redis_effect hexec with rfl | rfl
        · exact hPs
        · exact hown s hPs
    · rw [if_neg he]
      exact Keeps.raise fun s _ h => h.1

variable {channelUuid : Text} {lockToken slotToken : LockToken Thread}

/-- `_still_holds_start_locks`. -/
theorem keeps_stillHolds (hP : (conduct S).Stable t P) (hlock : lockToken.thread = t)
    (hslot : slotToken.thread = t) (hne : lockToken ≠ slotToken)
    (hown : ∀ s token, P s → P (renewed s token)) :
    (conduct S).Keeps t P (stillHoldsStartLocks channelUuid lockToken slotToken)
      (Ends P (fun held s => P s ∧ (held = true →
        S.Kept (.channel channelUuid) lockToken s ∧ S.Kept .slot slotToken s)) fun _ => True) := by
  refine (keeps_renew hP hlock fun s h => hown s _ h).bind (fun channelHeld => ?_)
    fun e s _ h => h
  have hstable : (conduct S).Stable t fun s =>
      P s ∧ (channelHeld = true → S.Kept (.channel channelUuid) lockToken s) := fun s s' h hrely =>
    ⟨hP s s' h.1 hrely, fun hheld => stable_kept hlock s s' (h.2 hheld) hrely⟩
  refine ((keeps_renew hstable hslot fun s h => ⟨hown s _ h.1, fun hheld hguarded => ?_⟩).pre
    fun s _ h => h.1).bind (fun slotHeld => Keeps.done fun s _ h => ?_) fun e s _ h => h.1
  · refine (h.2 hheld hguarded).imp id fun hexpired => ?_
    exact List.mem_filter.mpr ⟨hexpired, by simpa using hne⟩
  · obtain ⟨⟨⟨hPs, hchannel⟩, hslotHeld⟩, -⟩ := h
    refine ⟨⟨hPs, fun hboth => ?_⟩, trivial⟩
    obtain ⟨h₁, h₂⟩ := Bool.and_eq_true_iff.mp hboth
    exact ⟨hchannel h₁, hslotHeld h₂⟩

end Renewals

/-! ## the count -/

section Counting

variable {slotToken : LockToken Thread}

/-- While the slot lock has this token, every state came up before this scan. -/
def CameUpBefore (S : Setting Thread) (slotToken : LockToken Thread) (scan : Nat)
    (s : World Thread) : Prop :=
  S.Orderly → s.locks .slot = some slotToken →
    ∀ channelUuid, (s.states.get channelUuid).isSome → s.since channelUuid < scan

/-- While the slot lock has this token, these are all the channels with a state. -/
def Counted (S : Setting Thread) (slotToken : LockToken Thread) (keys : List Text)
    (s : World Thread) : Prop :=
  S.Orderly → s.locks .slot = some slotToken →
    ∀ channelUuid, (s.states.get channelUuid).isSome → channelUuid ∈ keys

theorem stable_cameUpBefore {scan : Nat} (hslot : slotToken.thread = t) :
    (conduct S).Stable t (S.CameUpBefore slotToken scan) := by
  intro s s' h hrely horderly hstored channelUuid hstate
  obtain ⟨hbefore, hsince⟩ := hrely.slot horderly slotToken hslot hstored channelUuid hstate
  exact hsince ▸ h horderly (hrely.locks _ slotToken hslot hstored) channelUuid hbefore

theorem stable_counted {keys : List Text} (hslot : slotToken.thread = t) :
    (conduct S).Stable t (S.Counted slotToken keys) := by
  intro s s' h hrely horderly hstored channelUuid hstate
  obtain ⟨hbefore, -⟩ := hrely.slot horderly slotToken hslot hstored channelUuid hstate
  exact h horderly (hrely.locks _ slotToken hslot hstored) channelUuid hbefore

/-- `_list_buffer_keys` under the slot lock misses no state. -/
theorem keeps_countBufferKeys (hP : (conduct S).Stable t P) (hslot : slotToken.thread = t) :
    (conduct S).Keeps t P listBufferKeys
      (Ends P (fun keys s => P s ∧ S.Counted slotToken keys s) fun _ => True) := by
  refine Keeps.bind (B := fun r s => P s ∧ ∀ scan, r = .ok scan →
      S.CameUpBefore slotToken scan s) (keeps_call (c := .scan) hP (fun _ _ _ => trivial) ?_)
    (fun scan => ?_) fun e s _ h => h.1
  · intro s choice s' r hinv _ _ hexec hP'
    refine ⟨hP' rfl, fun scan hr _ _ channelUuid _ => ?_⟩
    subst hr
    rcases World.redis_eq_some hexec with ⟨rfl, hscan⟩ | ⟨-, h⟩
    · rw [Except.ok.inj hscan]
      exact Nat.lt_succ_of_le (hinv.since channelUuid)
    · simp at h
  · have hstable : (conduct S).Stable t fun s => P s ∧ S.CameUpBefore slotToken scan s :=
      hP.and (stable_cameUpBefore hslot)
    refine Keeps.pre (P := fun s => P s ∧ S.CameUpBefore slotToken scan s)
      (Keeps.bind (B := fun r s => P s ∧ ∀ keys, r = .ok keys → S.Counted slotToken keys s)
        (keeps_query hstable fun s choice r _ h _ hanswer => ?_) (fun keys =>
          Keeps.done fun s _ h => ?_) fun e s _ h => h.1) fun s _ h => ⟨h.1, h.2 scan rfl⟩
    · simp only [World.answer] at hanswer
      split at hanswer
      · cases hanswer
        exact ⟨h.1, by simp⟩
      · split at hanswer
        · next hall =>
            cases hanswer
            refine ⟨h.1, fun keys hkeys horderly hstored channelUuid hstate => ?_⟩
            obtain rfl := Except.ok.inj hkeys
            obtain ⟨state, hfound⟩ := Option.isSome_iff_exists.mp hstate
            exact hall _ (Dict.mem_of_get hfound) (h.2 horderly hstored channelUuid hstate)
        · contradiction
    · refine ⟨⟨h.1, fun horderly hstored channelUuid hstate => ?_⟩, trivial⟩
      exact List.mem_eraseDups.mpr (h.2 keys rfl horderly hstored channelUuid hstate)

omit [DecidableEq Thread] in
/-- So many states are there at most. -/
theorem Counted.length_le {s : World Thread} {keys : List Text} (hinv : S.Inv s)
    (h : S.Counted slotToken keys s) (horderly : S.Orderly)
    (hstored : s.locks .slot = some slotToken) : s.states.length ≤ keys.length := by
  rw [← List.length_map (f := Prod.fst)]
  refine (hinv.keys.subperm fun channelUuid hmem => ?_).length_le
  exact h horderly hstored channelUuid (Dict.isSome_get_of_mem hmem)

end Counting

/-! ## the spawn -/

section Spawn

variable {lockToken slotToken : LockToken Thread} {params : StartParams} {keys : List Text}
  {e : Spawned Thread}

/-- Both locks of a start. -/
def heldBoth (channelUuid : Text) (lockToken slotToken : LockToken Thread) :
    LockName → Option (LockToken Thread) :=
  update (heldFor channelUuid lockToken) .slot (some slotToken)

omit [DecidableEq Thread] in
theorem heldBoth_channel (channelUuid : Text) (lockToken slotToken : LockToken Thread) :
    heldBoth channelUuid lockToken slotToken (.channel channelUuid) = some lockToken := by
  simp [heldBoth, heldFor, update]

/-- What a start knows under both its locks: there is no state, and how many there
are. -/
def Counting (S : Setting Thread) (channelUuid : Text) (lockToken slotToken : LockToken Thread)
    (keys : List Text) (s : World Thread) : Prop :=
  S.Under s channelUuid lockToken none ∧ S.Counted slotToken keys s

/-- And before it has spawned its `ffmpeg`. -/
def Ready (S : Setting Thread) (t : Thread) (channelUuid : Text)
    (lockToken slotToken : LockToken Thread) (keys : List Text) (s : World Thread) : Prop :=
  Tied t (heldBoth channelUuid lockToken slotToken) s ∧
    S.Counting channelUuid lockToken slotToken keys s

/-- And once it has. -/
structure Started (S : Setting Thread) (t : Thread) (params : StartParams)
    (lockToken slotToken : LockToken Thread) (keys : List Text) (e : Spawned Thread)
    (s : World Thread) : Prop where
  spawned : e ∈ s.spawned
  only : ∀ e' ∈ s.spawned, e'.thread = t → e' = e
  born : e.process ∈ s.born
  holding : s.holding t = heldBoth params.channelUuid lockToken slotToken
  first : t ∉ s.registering
  counting : S.Counting params.channelUuid lockToken slotToken keys s
  thread : e.thread = t
  path : e.path = params.path
  lock : e.lock = some lockToken

/-- The owner file names the process. -/
def Named (S : Setting Thread) (e : Spawned Thread) (s : World Thread) : Prop :=
  S.OwnersKept → s.running e.process = true → s.ownerAt e.path = some e.process

/-- A write of the owner file is refused by the files alone, and never where they are kept. -/
structure Writes (S : Setting Thread) (t : Thread) (params : StartParams)
    (lockToken slotToken : LockToken Thread) (keys : List Text) (e : Spawned Thread)
    (r : Except Failure Unit) (s : World Thread) : Prop where
  started : S.Started t params lockToken slotToken keys e s
  kept : S.OwnersKept → r = .ok ()
  failed : ∀ f, r = .error f → f = .os ∨ f = .fileNotFound

/-- What a start of `ffmpeg` has left: one that its owner file names, or none. -/
def Launched (S : Setting Thread) (t : Thread) (params : StartParams)
    (lockToken slotToken : LockToken Thread) (keys : List Text) :
    Except Failure BufferState → World Thread → Prop
  | .ok state, s => ∃ e : Spawned Thread, (e.process = state.process ∧
      channelDir state = params.path) ∧ S.Started t params lockToken slotToken keys e s ∧
        S.Named e s
  | .error _, s => s.Unspawned t

/-- And with a reply of its own where there is none. -/
def Tried (S : Setting Thread) (t : Thread) (params : StartParams)
    (lockToken slotToken : LockToken Thread) (keys : List Text) :
    Except Failure (Except Reply BufferState) → World Thread → Prop
  | .ok (.ok state), s => S.Launched t params lockToken slotToken keys (.ok state) s
  | _, s => s.Unspawned t

theorem stable_counting {channelUuid : Text} (hlock : lockToken.thread = t)
    (hslot : slotToken.thread = t) :
    (conduct S).Stable t (S.Counting channelUuid lockToken slotToken keys) :=
  (stable_under hlock).and (stable_counted hslot)

theorem stable_ready {channelUuid : Text} (hlock : lockToken.thread = t)
    (hslot : slotToken.thread = t) :
    (conduct S).Stable t (S.Ready t channelUuid lockToken slotToken keys) :=
  stable_tied.and (stable_counting hlock hslot)

theorem stable_started (hlock : lockToken.thread = t) (hslot : slotToken.thread = t) :
    (conduct S).Stable t (S.Started t params lockToken slotToken keys e) := fun s s' h hrely =>
  { h with
    spawned := hrely.spawned e h.spawned
    only := fun e' he' ht => h.only e' (hrely.own e' he' ht) ht
    born := hrely.born _ h.born
    holding := hrely.holding.trans h.holding
    first := fun hfirst => h.first (hrely.registering.mpr hfirst)
    counting := stable_counting hlock hslot s s' h.counting hrely }

theorem stable_startedNamed (hlock : lockToken.thread = t) (hslot : slotToken.thread = t) :
    (conduct S).Stable t fun s =>
      S.Started t params lockToken slotToken keys e s ∧ S.Named e s := fun s s' h hrely =>
  ⟨stable_started hlock hslot s s' h.1 hrely, fun hkept hrunning =>
    hrely.owners hkept _ _ h.1.born (h.2 hkept (hrely.dead _ h.1.born hrunning)) hrunning⟩

omit [DecidableEq Thread] in
theorem settled_of_unspawned {s : World Thread} (h : s.Unspawned t) : Settled t s :=
  .inr fun e he ht => absurd ht (h e he)

omit [DecidableEq Thread] in
theorem Started.settled {s : World Thread}
    (h : S.Started t params lockToken slotToken keys e s) (hdead : s.running e.process = false) :
    Settled t s :=
  .inr fun e' he' ht => h.only e' he' ht ▸ ⟨h.born, hdead⟩

/-- A command on files that may fail where nothing is spawned yet. -/
theorem keeps_popen (hlock : lockToken.thread = t) (hslot : slotToken.thread = t) :
    (conduct S).Keeps t (S.Ready t params.channelUuid lockToken slotToken keys)
      (call (.popen params.path)) fun r s => match r with
        | .ok process => ∃ e : Spawned Thread, e.process = process ∧
            S.Started t params lockToken slotToken keys e s
        | .error _ => s.Unspawned t := by
  refine keeps_call (stable_ready hlock hslot) (fun s _ h => h.1.1) ?_
  intro s choice s' r hinv h _ hexec _
  simp only [World.exec] at hexec
  split at hexec
  · cases hexec; exact h.1.1
  · cases hexec; exact h.1.1
  · split at hexec
    · cases hexec
      refine ⟨_, rfl, { h with
        spawned := List.mem_cons_self
        only := fun e' he' ht => ?_
        born := List.mem_cons_self
        holding := h.1.2
        first := fun hfirst => ?_
        counting := h.2
        thread := rfl
        path := rfl
        lock := ?_ }⟩
      · exact (List.mem_cons.mp he').resolve_right fun he' => h.1.1 e' he' ht
      · obtain ⟨e', he', ht⟩ := hinv.registering t hfirst
        exact h.1.1 e' he' ht
      · rw [h.1.2]
        exact heldBoth_channel params.channelUuid lockToken slotToken
    · contradiction

/-- The try at `ffmpeg.owner.json.tmp`. -/
theorem keeps_writeOwnerTmp (hlock : lockToken.thread = t) (hslot : slotToken.thread = t) :
    (conduct S).Keeps t (S.Started t params lockToken slotToken keys e)
      (call (.writeOwnerTmp e.path e.process)) (S.Writes t params lockToken slotToken keys e) := by
  refine keeps_call (stable_started hlock hslot) (fun s _ h => ⟨e, h.spawned, rfl, rfl⟩) ?_
  intro s choice s' r _ h hsupposed hexec hstarted
  refine ⟨hstarted rfl, fun hkept => ?_, fun f hf => ?_⟩
  · obtain ⟨hfile, hdir⟩ := hkept _ _ _ _ hsupposed
    obtain ⟨dir, hdir⟩ := Option.isSome_iff_exists.mp hdir
    simp only [World.exec, hfile, hdir, Option.some.injEq, Prod.mk.injEq] at hexec
    exact hexec.2.symm
  · subst hf
    simp only [World.exec] at hexec
    split at hexec
    · cases hexec; exact .inl rfl
    · cases hexec; exact .inr rfl
    · simp at hexec

/-- Its rename, which names the process. -/
theorem keeps_replaceOwner (hlock : lockToken.thread = t) (hslot : slotToken.thread = t) :
    (conduct S).Keeps t (S.Started t params lockToken slotToken keys e)
      (call (.replaceOwner e.path e.process)) fun r s =>
        S.Writes t params lockToken slotToken keys e r s ∧ (r = .ok () → S.Named e s) := by
  refine keeps_call (stable_started hlock hslot) (fun _ _ _ => trivial) ?_
  intro s choice s' r _ h hsupposed hexec hstarted
  refine ⟨⟨hstarted rfl, fun hkept => ?_, fun f hf => ?_⟩, fun hr hkept hrunning => ?_⟩
  · obtain ⟨hfile, ⟨dir, hdir, htmp⟩, -⟩ := hkept _ _ _ _ hsupposed
    simp only [World.exec, hfile, hdir, Option.bind_some, htmp, Option.map_some,
      Option.some.injEq, Prod.mk.injEq] at hexec
    exact hexec.2.symm
  · subst hf
    simp only [World.exec] at hexec
    split at hexec
    · cases hexec; exact .inl rfl
    · cases hexec; exact .inr rfl
    · simp at hexec
  · subst hr
    obtain ⟨hfile, ⟨dir, hdir, htmp⟩, -⟩ := hkept _ _ _ _ hsupposed
    simp only [World.exec, hfile, hdir, Option.bind_some, htmp, Option.map_some,
      Option.some.injEq, Prod.mk.injEq] at hexec
    simp [← hexec.1, World.ownerAt_setDir]

/-- Its removal, for another process that runs: there is none where the owner files are kept. -/
theorem keeps_unlinkOwnerTmp (hlock : lockToken.thread = t) (hslot : slotToken.thread = t) :
    (conduct S).Keeps t (S.Started t params lockToken slotToken keys e)
      (call (.unlinkOwnerTmp e.path)) fun r s =>
        S.Writes t params lockToken slotToken keys e r s ∧ (r = .ok () → S.Named e s) := by
  refine keeps_call (stable_started hlock hslot) (fun _ _ _ => trivial) ?_
  intro s choice s' r _ h hsupposed hexec hstarted
  have hrefused : ¬ S.OwnersKept := fun hkept => hkept _ _ _ _ hsupposed
  refine ⟨⟨hstarted rfl, fun hkept => absurd hkept hrefused, fun f hf => ?_⟩,
    fun _ hkept => absurd hkept hrefused⟩
  subst hf
  simp only [World.exec] at hexec
  split at hexec <;> simp at hexec

/-- `_write_owner_file`: it goes on whatever comes of it, and where the owner files
are kept it has named the process. -/
theorem keeps_writeOwnerFile (hlock : lockToken.thread = t) (hslot : slotToken.thread = t) :
    (conduct S).Keeps t (S.Started t params lockToken slotToken keys e)
      (writeOwnerFile e.path e.process) fun r s =>
        (S.Started t params lockToken slotToken keys e s ∧ S.Named e s) ∧ r = .ok () := by
  have hstable : (conduct S).Stable t (S.Started t params lockToken slotToken keys e) :=
    stable_started hlock hslot
  refine Keeps.tryExcept (B := fun r s => S.Writes t params lockToken slotToken keys e r s ∧
      (r = .ok () → S.Named e s)) ?_ (fun _ s _ h => ⟨⟨h.1.started, h.2 rfl⟩, rfl⟩) fun f => ?_
  · refine (keeps_writeOwnerTmp hlock hslot).bind (fun _ => ?_) fun f s _ h => ⟨h, by simp⟩
    refine Keeps.pre (P := S.Started t params lockToken slotToken keys e) ?_
      fun s _ h => h.started
    refine (keeps_liveOwner hstable).bind (fun found => ?_) fun f s _ h => absurd h.2 (by simp)
    refine Keeps.pre (P := S.Started t params lockToken slotToken keys e) ?_ fun s _ h => h.1
    cases found with
    | none => exact keeps_replaceOwner hlock hslot
    | some other =>
        dsimp only
        split
        · exact keeps_unlinkOwnerTmp hlock hslot
        · exact keeps_replaceOwner hlock hslot
  · by_cases hf : f = .os ∨ f = .fileNotFound
    · rw [if_pos hf]
      refine Keeps.done fun s _ h => ⟨⟨h.1.started, fun hkept => ?_⟩, rfl⟩
      exact absurd (h.1.kept hkept) (by simp)
    · rw [if_neg hf]
      exact Keeps.raise fun s _ h => absurd (h.1.failed f rfl) hf

theorem Ready.renewed {s : World Thread} {channelUuid : Text} {token : LockToken Thread}
    (h : S.Ready t channelUuid lockToken slotToken keys s) :
    S.Ready t channelUuid lockToken slotToken keys (Setting.renewed s token) := h

omit [DecidableEq Thread] in
theorem Ready.clearing {s : World Thread}
    (h : S.Ready t params.channelUuid lockToken slotToken keys s) :
    S.Clearing t params.path lockToken s :=
  ⟨by rw [h.1.2]; exact heldBoth_channel params.channelUuid lockToken slotToken, h.2.1, h.1.1⟩

/-- The spawn: a process whose owner file names it, or none. -/
theorem keeps_spawnFfmpeg (hlock : lockToken.thread = t) (hslot : slotToken.thread = t) :
    (conduct S).Keeps t (S.Ready t params.channelUuid lockToken slotToken keys)
      (spawnFfmpeg params) (S.Launched t params lockToken slotToken keys) := by
  have hready : (conduct S).Stable t (S.Ready t params.channelUuid lockToken slotToken keys) :=
    stable_ready hlock hslot
  refine (keeps_clearChannelDir hready fun s h => h.clearing).bind (fun _ => ?_)
    fun e s _ h => h.1.1
  refine Keeps.pre (P := S.Ready t params.channelUuid lockToken slotToken keys) ?_ fun s _ h => h.1
  refine (keeps_mild (c := .mkdir _) hready rfl fun _ _ _ => trivial).bind (fun _ => ?_)
    fun e s _ h => h.1.1
  refine Keeps.pre (P := S.Ready t params.channelUuid lockToken slotToken keys) ?_ fun s _ h => h.1
  refine (keeps_popen hlock hslot).bind (fun process => ?_) fun e s _ h => h
  rintro s hinv ⟨e, rfl, hstarted⟩
  suffices hrest : (conduct S).Keeps t (S.Started t params lockToken slotToken keys e) _ _ from
    hrest s hinv hstarted
  rw [← hstarted.path]
  refine (keeps_writeOwnerFile hlock hslot).bind (fun _ => ?_) fun f s _ h => absurd h.2 (by simp)
  have hnamed : (conduct S).Stable t fun s =>
      S.Started t params lockToken slotToken keys e s ∧ S.Named e s := stable_startedNamed hlock hslot
  refine Keeps.pre (P := fun s => S.Started t params lockToken slotToken keys e s ∧ S.Named e s)
    ?_ fun s _ h => h.1
  refine keeps_now hnamed fun startedAt => ?_
  refine keeps_now (hnamed.and stable_clock) fun lastHeartbeat => Keeps.done fun s _ h => ?_
  exact ⟨e, ⟨rfl, rfl⟩, h.1.1⟩

/-- `_start_ffmpeg`: the same, if it still holds its locks. -/
theorem keeps_startFfmpeg (hlock : lockToken.thread = t) (hslot : slotToken.thread = t)
    (hne : lockToken ≠ slotToken) :
    (conduct S).Keeps t (S.Ready t params.channelUuid lockToken slotToken keys)
      (startFfmpeg params lockToken slotToken) (S.Launched t params lockToken slotToken keys) := by
  have hready : (conduct S).Stable t (S.Ready t params.channelUuid lockToken slotToken keys) :=
    stable_ready hlock hslot
  refine (keeps_reapUntrackedFfmpeg hready fun s h => h.clearing).bind (fun reaped => ?_)
    fun e s _ h => h.1.1
  refine Keeps.pre (P := S.Ready t params.channelUuid lockToken slotToken keys) ?_ fun s _ h => h.1
  split
  · refine (keeps_stillHolds hready hlock hslot hne fun s token h => h.renewed).bind
      (fun held => ?_) fun e s _ h => h.1.1
    split
    · exact (keeps_spawnFfmpeg hlock hslot).pre fun s _ h => h.1.1
    · exact Keeps.raise fun s _ h => h.1.1.1.1
  · exact keeps_spawnFfmpeg hlock hslot

end Spawn

/-! ## the registration -/

section Register

variable {lockToken slotToken : LockToken Thread} {params : StartParams} {keys : List Text}
  {e : Spawned Thread}

/-- The `ffmpeg` of a start that does not register it is stopped. -/
theorem keeps_stopStarted {state : BufferState} (hlock : lockToken.thread = t)
    (hslot : slotToken.thread = t) (hprocess : e.process = state.process) :
    (conduct S).Keeps t
      (fun s => S.Started t params lockToken slotToken keys e s ∧ S.Named e s)
      (stopFfmpeg state.process (some state.process)) fun _ s => Settled t s := by
  have hpromise : ∀ s kill, S.Inv s →
      (S.Started t params lockToken slotToken keys e s ∧ S.Named e s) →
        S.Promise t s (.killpg state.process (some state.process) kill) := fun s _ _ h =>
    ⟨rfl, .inr ⟨e, h.1.spawned, h.1.thread, hprocess⟩⟩
  exact (keeps_stopFfmpeg (stable_startedNamed hlock hslot) hpromise).post fun r s h =>
    h.1.1.settled (hprocess ▸ h.2.1)

omit [DecidableEq Thread] in
/-- What a start promises when it registers its buffer. -/
theorem registers {s : World Thread} {state : BufferState} {now : Int}
    (hinv : S.Inv s) (hrequest : S.requests t = .startBuffer params)
    (hcount : keys.length < S.maxConcurrent)
    (hprocess : e.process = state.process) (hdir : channelDir state = params.path)
    (h : S.Started t params lockToken slotToken keys e s) (hnamed : S.Named e s)
    (hchannel : S.Kept (.channel params.channelUuid) lockToken s)
    (hslotKept : S.Kept .slot slotToken s) :
    S.Registers t s params.channelUuid (newBuffer params state now) := by
  have hheld : s.holding t (.channel params.channelUuid) = some lockToken := by
    rw [h.holding]
    exact heldBoth_channel params.channelUuid lockToken slotToken
  have hheldSlot : s.holding t .slot = some slotToken := by
    rw [h.holding]
    exact update_self ..
  have hstored : S.Guarded → s.Unexpired t params.channelUuid →
      s.locks (.channel params.channelUuid) = some lockToken ∧ s.locks .slot = some slotToken :=
    fun hguarded hunexpired =>
      ⟨(hchannel hguarded).resolve_right (hunexpired _ (by simp) _ hheld),
        (hslotKept hguarded).resolve_right (hunexpired _ (by simp) _ hheldSlot)⟩
  have hviewers : (newBuffer params state now).viewers.Nodup := by
    cases hviewer : params.viewerId <;> simp [newBuffer, hviewer]
  refine { ofChannel := congrArg Prod.snd hdir, viewers := hviewers, first := h.first,
           spawned := ?_, token := ?_,
           locked := fun hguarded hunexpired name hname => ?_,
           alone := fun horderly hunexpired => ?_, named := fun hkept hrunning => ?_ }
  · exact ⟨e, h.spawned, h.thread, hprocess, h.path.trans hdir.symm, lockToken, h.lock, hheld⟩
  · exact ⟨params, hrequest, rfl⟩
  · obtain ⟨hstoredChannel, hstoredSlot⟩ := hstored hguarded hunexpired
    rcases List.mem_cons.mp hname with rfl | hname
    · exact ⟨lockToken, hheld, hstoredChannel⟩
    · obtain rfl := List.mem_singleton.mp hname
      exact ⟨slotToken, hheldSlot, hstoredSlot⟩
  · obtain ⟨hstoredChannel, hstoredSlot⟩ := hstored horderly.toGuarded hunexpired
    refine ⟨?_, (h.counting.2.length_le hinv horderly hstoredSlot).trans_lt hcount⟩
    cases hstate : s.states.get params.channelUuid with
    | none => rfl
    | some found =>
        obtain ⟨A, hA, -⟩ := h.counting.1 horderly hstoredChannel found hstate
        contradiction
  · have hown : e.path = channelDir state := h.path.trans hdir.symm
    have hnames : s.ownerAt e.path = some e.process := hnamed hkept (hprocess ▸ hrunning)
    rw [hown, hprocess] at hnames
    exact hnames

/-- The part of `_start_buffer_locked` behind `_start_ffmpeg`. -/
theorem keeps_registerBuffer {state : BufferState} (hlock : lockToken.thread = t)
    (hslot : slotToken.thread = t) (hne : lockToken ≠ slotToken)
    (hrequest : S.requests t = .startBuffer params) (hcount : keys.length < S.maxConcurrent)
    (hprocess : e.process = state.process) (hdir : channelDir state = params.path) :
    (conduct S).Keeps t
      (fun s => S.Started t params lockToken slotToken keys e s ∧ S.Named e s)
      (registerBuffer params lockToken slotToken state) fun _ s => Settled t s := by
  have hnamed : (conduct S).Stable t fun s =>
      S.Started t params lockToken slotToken keys e s ∧ S.Named e s := stable_startedNamed hlock hslot
  refine keeps_now hnamed fun now => Keeps.pre (P := fun s =>
    S.Started t params lockToken slotToken keys e s ∧ S.Named e s) ?_ fun s _ h => h.1
  have hstop : (conduct S).Keeps t
      (fun s => S.Started t params lockToken slotToken keys e s ∧ S.Named e s)
      (stopFfmpeg state.process (some state.process)) fun _ s => Settled t s :=
    keeps_stopStarted hlock hslot hprocess
  refine Keeps.bind (B := fun r s => match r with
      | .ok held => (S.Started t params lockToken slotToken keys e s ∧ S.Named e s) ∧
          (held = true → S.Kept (.channel params.channelUuid) lockToken s ∧
            S.Kept .slot slotToken s)
      | .error _ => Settled t s)
    ((keeps_stillHolds hnamed hlock hslot hne fun s token h =>
      ⟨{ h.1 with }, h.2⟩).tryExcept (fun held s _ h => h.1) fun f =>
        hstop.bind (fun _ => Keeps.raise fun s _ h => h) fun f s _ h => h)
    (fun held => ?_) fun f s _ h => h
  cases held with
  | false =>
      refine Keeps.pre (P := fun s => S.Started t params lockToken slotToken keys e s ∧
        S.Named e s) ?_ fun s _ h => h.1
      exact Keeps.bind (B := fun _ s => Settled t s) hstop (fun _ => Keeps.done fun s _ h => h)
        fun f s _ h => h
  | true =>
      have hstable : (conduct S).Stable t fun s =>
          (S.Started t params lockToken slotToken keys e s ∧ S.Named e s) ∧
            S.Kept (.channel params.channelUuid) lockToken s ∧ S.Kept .slot slotToken s :=
        hnamed.and ((stable_kept hlock).and (stable_kept hslot))
      refine Keeps.pre (P := fun s =>
        (S.Started t params lockToken slotToken keys e s ∧ S.Named e s) ∧
          S.Kept (.channel params.channelUuid) lockToken s ∧ S.Kept .slot slotToken s) ?_
        fun s _ h => ⟨h.1, h.2 rfl⟩
      refine Keeps.bind (B := fun _ s => Settled t s)
        (keeps_call (c := .setState _ _ .registration) hstable (fun s hinv h =>
          registers hinv hrequest hcount hprocess hdir h.1.1 h.1.2 h.2.1 h.2.2) ?_)
        (fun _ => Keeps.done fun s _ h => h) fun f s _ h => h
      intro s choice s' r _ _ _ hexec _
      rcases World.redis_effect hexec with rfl | rfl
      · exact .inl List.mem_cons_self
      · exact .inl List.mem_cons_self

/-- The part of `_start_buffer_locked` under the slot lock. -/
theorem keeps_startInSlot (hlock : lockToken.thread = t) (hslot : slotToken.thread = t)
    (hne : lockToken ≠ slotToken) (hrequest : S.requests t = .startBuffer params) :
    (conduct S).Keeps t
      (fun s => Tied t (heldBoth params.channelUuid lockToken slotToken) s ∧
        S.Under s params.channelUuid lockToken none)
      (startInSlot S.maxConcurrent params lockToken slotToken) fun _ s => Settled t s := by
  refine (keeps_countBufferKeys (stable_tied.and (stable_under hlock)) hslot).bind
    (fun keys => ?_) fun e s _ h => settled_of_unspawned h.1.1
  have hready : (conduct S).Stable t (S.Ready t params.channelUuid lockToken slotToken keys) :=
    stable_ready hlock hslot
  refine Keeps.pre (P := S.Ready t params.channelUuid lockToken slotToken keys) ?_ fun s _ h =>
    ⟨h.1.1.1, h.1.1.2, h.1.2⟩
  split
  · exact Keeps.done fun s _ h => settled_of_unspawned h.1.1
  next hcount =>
  refine (keeps_stillHolds hready hlock hslot hne fun s token h => h.renewed).bind
    (fun held => ?_) fun e s _ h => settled_of_unspawned h.1.1
  refine Keeps.pre (P := S.Ready t params.channelUuid lockToken slotToken keys) ?_ fun s _ h =>
    h.1.1
  split
  · exact Keeps.done fun s _ h => settled_of_unspawned h.1.1
  refine Keeps.bind (B := S.Tried t params lockToken slotToken keys)
    (Keeps.tryExcept (B := S.Tried t params lockToken slotToken keys)
      ((keeps_startFfmpeg hlock hslot hne).bind (fun state => Keeps.done fun s _ h => h)
        fun f s _ h => h) (fun started s _ h => h) fun f => Keeps.done fun s _ h => h)
    (fun started => ?_) fun f s _ h => settled_of_unspawned h
  cases started with
  | error reply => exact Keeps.done fun s _ h => settled_of_unspawned h
  | ok state =>
      rintro s hinv ⟨e, ⟨hprocess, hdir⟩, h⟩
      exact keeps_registerBuffer hlock hslot hne hrequest (by omega) hprocess hdir s hinv h

theorem Settled.release {s : World Thread} {name : LockName}
    (h : Settled t s) :
    Settled t (s.hold t name none) ∧ Settled t ((s.hold t name none).dropLock name) := ⟨h, h⟩

/-- The part of `_start_buffer_locked` that finds no buffer to attach to. -/
theorem keeps_startFresh (hlock : lockToken.thread = t)
    (hrequest : S.requests t = .startBuffer params) :
    (conduct S).Keeps t
      (fun s => Tied t (heldFor params.channelUuid lockToken) s ∧
        S.Under s params.channelUuid lockToken none)
      (startFresh S.maxConcurrent params lockToken) fun _ s => Settled t s := by
  refine (keeps_acquire .slot (stable_under hlock) fun s s' h heffect => ?_).bind
    (fun found => ?_) fun e s _ h => settled_of_unspawned h.1.1
  · cases heffect with
    | nothing => exact h
    | lockTried => exact h
    | lockTaken => exact fun horderly hstored => h horderly (by simpa [update] using hstored)
    | lockAcquired =>
        exact fun horderly hstored => h horderly (by simpa [World.hold, update] using hstored)
  cases found with
  | none => exact Keeps.done fun s _ h => settled_of_unspawned h.1.1
  | some slotToken =>
      rintro s hinv ⟨h, hslot, hother⟩
      have hne : lockToken ≠ slotToken := hother (.channel params.channelUuid) lockToken
        (by simp [heldFor])
      refine Keeps.tryFinally (keeps_startInSlot hlock hslot hne hrequest) (fun r => ?_) s hinv h
      refine (keeps_release stable_settled stable_settled hslot fun s h => h.release).post
        fun r' s h => ?_
      cases r' <;> exact h

/-- The change of a start that attaches. -/
theorem keeps_attachUnlessStopping {old : BufferState} (hP : (conduct S).Stable t P)
    (hrequest : S.requests t = .startBuffer params)
    (hchannel : old.channelUuid = params.channelUuid) :
    (conduct S).Keeps t (fun s => P s ∧ s.Seen old) (attachUnlessStopping params old)
      (S.Mutated t params.channelUuid none P P old) := by
  simp only [attachUnlessStopping]
  split
  · exact Keeps.done fun s _ h => h.1
  · next hstopping =>
      have hstopping : old.stopping = false := by simpa using hstopping
      have hseen : (conduct S).Stable t fun s => P s ∧ s.Seen old := hP.and stable_seen
      refine keeps_now hseen fun now => ?_
      split
      · refine keeps_now (hseen.and stable_clock) fun viewerNow => Keeps.done fun s _ h => ?_
        exact ⟨h.1.1.1, hrequest ▸ .attaches hstopping h.1.2 h.2, hchannel, h.1.1.2⟩
      · refine Keeps.done fun s _ h => ?_
        exact ⟨h.1.1, hrequest ▸ .attaches hstopping h.2 h.2, hchannel, h.1.2⟩

theorem classifyExistingBuffer_ne_none (existing : BufferState) (isAlive : Bool) (now : Int)
    (port : Nat) (path : Text) :
    classifyExistingBuffer (some existing) isAlive now port path ≠ .none := by
  simp only [classifyExistingBuffer]
  repeat' split
  all_goals simp

/-- What a start knows of the state it has read under its lock. -/
def Found (S : Setting Thread) (t : Thread) (params : StartParams)
    (lockToken : LockToken Thread) : Option BufferState → World Thread → Prop
  | none, s => S.Under s params.channelUuid lockToken none
  | some existing, s =>
      existing.channelUuid = params.channelUuid ∧ S.Keeper t lockToken existing s

/-- Its read. -/
theorem keeps_readState :
    (conduct S).Keeps t (Tied t (heldFor params.channelUuid lockToken))
      (ask (.state params.channelUuid)) fun r s =>
        Tied t (heldFor params.channelUuid lockToken) s ∧
          ∀ found, r = .ok found → S.Found t params lockToken found s := by
  refine keeps_query stable_tied fun s choice r hinv h _ hanswer => ⟨h, ?_⟩
  rintro found rfl
  simp only [World.answer] at hanswer
  split at hanswer <;> cases hanswer
  cases hstate : s.states.get params.channelUuid with
  | none => exact .of_none hstate none
  | some existing =>
      obtain ⟨hchannel, hseen⟩ := hinv.tracked _ _ hstate
      refine ⟨hchannel, ⟨by rw [hchannel]; exact h, hseen⟩, fun _ _ current hcurrent => ?_⟩
      rw [hchannel, hstate] at hcurrent
      exact ⟨existing, rfl, Option.some.inj hcurrent ▸ (BufferState.Continues.refl _).same⟩

/-- `_start_buffer_locked`. -/
theorem keeps_startBufferLocked (hlock : lockToken.thread = t)
    (hrequest : S.requests t = .startBuffer params) :
    (conduct S).Keeps t (Tied t (heldFor params.channelUuid lockToken))
      (startBufferLocked S.maxConcurrent params lockToken) fun _ s => Settled t s := by
  refine keeps_readState.bind (fun found => ?_) fun e s _ h => settled_of_unspawned h.1.1
  cases found with
  | none => exact (keeps_startFresh hlock hrequest).pre fun s _ h => ⟨h.1, h.2 none rfl⟩
  | some existing =>
      rintro s hinv ⟨-, hfound⟩
      obtain ⟨hchannel, h⟩ := hfound _ rfl
      have hremoves : (S.requests t).removes existing .never := hrequest ▸ ⟨hchannel, rfl⟩
      have hstable : (conduct S).Stable t (S.Keeper t lockToken existing) := stable_keeper hlock
      suffices hrest : (conduct S).Keeps t (S.Keeper t lockToken existing) _ fun _ s =>
          Settled t s from hrest s hinv h
      have hsettled : ∀ s, S.Keeper t lockToken existing s → Settled t s := fun s h =>
        settled_of_unspawned h.1.1.1
      refine (keeps_mild (c := .query _) hstable rfl fun _ _ _ => trivial).bind (fun isAlive => ?_)
        fun e s _ h => hsettled s h
      refine Keeps.pre (P := S.Keeper t lockToken existing) ?_ fun s _ h => h.1
      refine keeps_now hstable fun now => Keeps.pre (P := S.Keeper t lockToken existing) ?_
        fun s _ h => h.1
      have hfresh := keeps_startFresh (S := S) hlock hrequest
      rw [← hchannel] at hfresh
      have hremoving : ∀ s, S.Keeper t lockToken existing s → S.Removing t s existing :=
        fun s h => ⟨⟨.never, hremoves⟩, h.1.2⟩
      split
      · next hnone => exact (classifyExistingBuffer_ne_none _ _ _ _ _ hnone).elim
      · exact Keeps.done fun s _ h => hsettled s h
      · rw [← hchannel]
        refine Keeps.bind (keeps_tryDelete (Q := fun deletion s =>
          S.Keeper t lockToken existing s ∧ (deletion = .deleted ∨ deletion = .absent →
            S.Under s existing.channelUuid lockToken none)) hstable hremoving False.elim
          (fun s _ h hnone => ⟨⟨h, fun _ => .of_none hnone none⟩, h, fun _ => .of_none hnone none⟩)
          (fun s _ _ h _ _ => ⟨h, by simp⟩) (fun s h => ⟨h, by simp⟩) stateUpdateAttempts)
          (fun deletion => ?_) fun e s _ h => hsettled s h
        split
        · exact Keeps.done fun s _ h => hsettled s h.1.1
        · next hgone =>
            have hdeletion : deletion = .deleted ∨ deletion = .absent := by
              cases deletion <;> simp_all
            have hstable' : (conduct S).Stable t fun s => S.Keeper t lockToken existing s ∧
                S.Under s existing.channelUuid lockToken none := hstable.and (stable_under hlock)
            refine Keeps.pre (P := fun s => S.Keeper t lockToken existing s ∧
              S.Under s existing.channelUuid lockToken none) ?_ fun s _ h =>
                ⟨h.1.1, h.1.2 hdeletion⟩
            refine (keeps_removeChannelFiles hstable' fun s h => ?_).bind (fun _ => ?_)
              fun e s _ h => hsettled s h.1
            · exact .inl ⟨lockToken, some existing, by rw [h.1.1.1.2]; exact update_self ..,
                h.1.2, rfl, h.1.1.1.1, fun A hA => Option.mem_some.mp hA ▸ hremoving s h.1⟩
            · exact hfresh.pre fun s _ h => ⟨h.1.1.1.1, h.1.2⟩
      · refine (keeps_teardownUnderLock hremoves hlock).bind (fun _ => ?_)
          fun e s _ h => settled_of_unspawned h.1
        exact hfresh.pre fun s _ h => h.1
      · refine Keeps.bind (B := fun _ s => Settled t s) ((keeps_update (P := Tied t
          (heldFor params.channelUuid lockToken)) stable_tied fun old hold =>
            keeps_attachUnlessStopping stable_tied hrequest hold).weaken (fun s _ h => ?_)
            fun r s h => ?_) (fun outcome => ?_) fun e s _ h => h
        · rw [← hchannel]
          exact h.1.1
        · cases r with
          | ok _ => exact settled_of_unspawned h.1.1
          | error _ => exact settled_of_unspawned h.1
        · cases outcome <;> exact Keeps.done fun s _ h => h

/-- **`_start_buffer`**: it stops the `ffmpeg` that it does not register. -/
theorem keeps_startBuffer (hrequest : S.requests t = .startBuffer params) :
    (conduct S).Keeps t (Idle t) (startBuffer S.maxConcurrent params) fun _ s => Settled t s := by
  refine Keeps.pre (P := fun s => Idle t s ∧ True) (Keeps.bind (keeps_acquire
    (.channel params.channelUuid) stable_true fun _ _ _ _ => trivial) (fun found => ?_)
    fun e s _ h => settled_of_unspawned h.1.1) fun s _ h => ⟨h, trivial⟩
  cases found with
  | none => exact Keeps.done fun s _ h => settled_of_unspawned h.1.1
  | some lockToken =>
      rintro s hinv ⟨h, hlock, -⟩
      refine Keeps.tryFinally (keeps_startBufferLocked hlock hrequest) (fun r => ?_) s hinv h.1
      refine (keeps_release stable_settled stable_settled hlock fun s h => h.release).post
        fun r' s h => ?_
      cases r' <;> exact h

end Register


/-! ## every operation -/

/-- What a thread is as before it begins. -/
theorem keeps_program (t : Thread) :
    (conduct S).Keeps t (Idle t) ((S.requests t).program S.py S.maxConcurrent)
      fun _ s => Settled t s := by
  have hend : ∀ (r : Except Failure Unit) (s : World Thread),
      Leaving (Idle t) (fun _ => True) r s → Settled t s := fun r s h => by
    cases r with
    | ok _ => exact settled_of_unspawned h.1.1
    | error _ => exact settled_of_unspawned h.1
  have hreply : ∀ {p : Prog Thread Reply},
      (conduct S).Keeps t (Idle t) p (Leaving (Idle t) fun _ => True) →
        (conduct S).Keeps t (Idle t) (p.bind fun _ => pure ()) fun _ s => Settled t s := fun h =>
    (h.bindLeaving fun _ _ => Keeps.doneLeaving trivial).post hend
  cases hrequest : S.requests t with
  | startBuffer params =>
      exact (keeps_startBuffer hrequest).bind (fun _ => Keeps.done fun s _ h => h) fun e s _ h => h
  | stopBuffer request => exact hreply (keeps_stopBuffer hrequest)
  | heartbeat request => exact hreply (keeps_heartbeat hrequest)
  | touchHeartbeat request => exact (keeps_touchHeartbeat hrequest).post hend
  | getLiveManifest worker request => exact hreply (keeps_getLiveManifestAction hrequest)
  | reaperTick storagePath => exact (keeps_reaperTick hrequest).post hend
  | scrubOrphanedBuffers storagePath => exact (keeps_scrubOrphanedDirs storagePath).post hend
  | stopAll => exact (keeps_stopAll hrequest).post hend

/-! ## every run -/

/-- Before anything has happened: nothing is stored, no lock is taken, nothing has
been spawned, and there may be processes that are not the plugin's. -/
structure Starts (scripts : Bool) (s : World Thread) : Prop where
  scripts : s.scripts = scripts
  states : s.states = []
  since : ∀ channelUuid, s.since channelUuid ≤ s.scans
  locks : s.locks = fun _ => none
  dirs : s.dirs = fun _ => none
  running : ∀ p, s.running p = true → p ∈ s.born
  holding : s.holding = fun _ _ => none
  spawned : s.spawned = []
  registered : s.registered = []
  registering : s.registering = []
  caches : s.caches = fun _ => []
  harmed : s.harmed = []

omit [DecidableEq Thread] in
theorem Starts.inv {s : World Thread} (h : Starts S.scripts s) : S.Inv s where
  scripts := h.scripts
  keys := by simp [h.states]
  since := h.since
  lockSerial := by simp [h.locks]
  holding := by simp [h.holding]
  running := h.running
  spawnedBorn := by simp [h.spawned]
  spawnedLock := by simp [h.spawned]
  byThread := by simp [h.spawned]
  byProcess := by simp [h.spawned]
  dirs := by simp [h.dirs]
  tracked := by simp [h.states, Dict.get]
  viewers := by simp [h.states, Dict.get]
  registered := by simp [h.registered]
  registering := by simp [h.registering]
  caches := by simp [h.caches, Dict.get]

omit [DecidableEq Thread] in
theorem starts_empty : Starts true ({} : World Thread) :=
  ⟨rfl, rfl, fun _ => Nat.le_refl _, rfl, rfl, by simp [World.running], rfl, rfl, rfl, rfl, rfl,
    rfl⟩

/-- The plugin's configurations. -/
abbrev PluginConfig (Thread : Type) := Config (World Thread) Thread (Cmd Thread) Cmd.Answer Failure

/-- They conduct themselves before they begin. -/
theorem holds_start {w : World Thread} (hw : Starts S.scripts w) :
    (conduct S).Holds Idle (fun t _ => Settled t) { world := w } :=
  ⟨hw.inv, by simp, fun t _ => ⟨fun e he => by simp [hw.spawned] at he, by rw [hw.holding]; rfl⟩⟩

/-- **Every run**: the threads conduct themselves. -/
theorem holds_of_run {w : World Thread} {c : PluginConfig Thread}
    {es : List (Event Thread Choice Env)} (hw : Starts S.scripts w)
    (htaken : Runs.Meets (plugin S.py S.maxConcurrent S.requests).step (Taken S.supposed)
      { world := w } es)
    (hrun : Runs.run (plugin S.py S.maxConcurrent S.requests).step { world := w } es = some c) :
    (conduct S).Holds Idle (fun t _ => Settled t) c :=
  Discipline.of_run (fun _ => stable_tied) (fun _ _ => stable_settled) keeps_program
    (fun _ _ _ hinv _ henv => ⟨Inv.env hinv henv, fun _ => Rely.env henv⟩) hw.inv
    (fun t => (holds_start hw).idle t rfl)
    (htaken.mono fun _ _ => supposed_of_taken fun _ _ => trivial) hrun

/-- One event more. -/
theorem holds_step {c c' : PluginConfig Thread} {e : Event Thread Choice Env}
    (h : (conduct S).Holds Idle (fun t _ => Settled t) c) (htaken : Taken S.supposed c e)
    (hstep : (plugin S.py S.maxConcurrent S.requests).step c e = some c') :
    (conduct S).Holds Idle (fun t _ => Settled t) c' :=
  h.step (fun _ => stable_tied) (fun _ _ => stable_settled) keeps_program
    (fun _ _ _ hinv _ henv => ⟨Inv.env hinv henv, fun _ => Rely.env henv⟩)
    (supposed_of_taken (fun _ _ => trivial) htaken) hstep

/-- **What holds of the world throughout**: what every step as promised keeps, and
whatever happens by itself, every run keeps. -/
theorem invariant_of_holds {J : World Thread → Prop}
    {taken : Thread → World Thread → Cmd Thread → Choice → Prop}
    (hsupposed : ∀ t s cmd choice, taken t s cmd choice → S.supposed t s cmd choice)
    (heffect : ∀ {t s s' cmd choice}, S.Inv s → S.Inv s' → S.Promise t s cmd →
      taken t s cmd choice → World.Effect t s cmd s' → J s → J s')
    (henv : ∀ {e s s'}, S.Inv s → s.env e = some s' → J s → J s')
    {c c' : PluginConfig Thread} {es : List (Event Thread Choice Env)}
    (h : (conduct S).Holds Idle (fun t _ => Settled t) c) (hJ : J c.world)
    (htaken : Runs.Meets (plugin S.py S.maxConcurrent S.requests).step (Taken taken) c es)
    (hrun : Runs.run (plugin S.py S.maxConcurrent S.requests).step c es = some c') :
    (conduct S).Holds Idle (fun t _ => Settled t) c' ∧ J c'.world := by
  refine Runs.invariant_of_meets (I := fun c => (conduct S).Holds Idle (fun t _ => Settled t) c ∧
    J c.world) (fun {c e c'} hI hC hstep => ?_) ⟨h, hJ⟩ htaken hrun
  have hnext := holds_step hI.1 (hC.mono hsupposed) hstep
  refine ⟨hnext, ?_⟩
  rcases Machine.step_cases hstep with ⟨t, -, hsame⟩ |
    ⟨t, choice, cmd, next, r, rfl, hleft, hexec⟩ | ⟨e', rfl, hworld⟩
  · exact hsame ▸ hI.2
  · exact heffect hI.1.inv hnext.inv (hI.1.promise hleft) (hC cmd next hleft)
      (World.exec_effect hexec) hI.2
  · exact henv hI.1.inv hworld hI.2

end Setting

end TimeshiftBuffer

end DispatcharrPvr
