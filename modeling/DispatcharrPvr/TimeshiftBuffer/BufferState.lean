import DispatcharrPvr.TimeshiftBuffer.LiveManifest

/-!
# TimeshiftBuffer.BufferState

One buffer's state as it is kept in Redis, what a start makes of one it finds,
and the changes the operations make to it.  Times are microseconds.
-/

namespace DispatcharrPvr

namespace TimeshiftBuffer

/-- A number of seconds. -/
def seconds (n : Nat) : Int := n * 1000000

/-- `_TEARDOWN_GRACE_SECONDS`. -/
def teardownGrace : Int := seconds 30

/-- `_STOPPED_VIEWER_TTL_SECONDS`. -/
def stoppedViewerTtl : Int := seconds 120

/-- `_MAX_VIEWERS_ADDED_BY_READS`. -/
def maxViewersAddedByReads : Nat := 32

/-- A dictionary in the order of its keys' insertion. -/
abbrev Dict (α : Type) := List (Text × α)

namespace Dict

variable {α : Type}

/-- `d.get(key)`. -/
def get (d : Dict α) (key : Text) : Option α := (d.find? (·.1 = key)).map Prod.snd

/-- `d[key] = value`. -/
def set : Dict α → Text → α → Dict α
  | [], key, value => [(key, value)]
  | e :: rest, key, value => if e.1 = key then (key, value) :: rest else e :: set rest key value

/-- `d.pop(key, None)`. -/
def erase (d : Dict α) (key : Text) : Dict α := d.filter (·.1 ≠ key)

theorem get_set (d : Dict α) (key : Text) (value : α) (k : Text) :
    (d.set key value).get k = if k = key then some value else d.get k := by
  induction d with
  | nil =>
      by_cases hk : k = key
      · simp [set, get, hk]
      · simp [set, get, hk, Ne.symm hk]
  | cons e rest ih =>
      simp only [set]
      by_cases he : e.1 = key
      · by_cases hk : k = key
        · simp [get, he, hk]
        · simp [get, he, hk, Ne.symm hk]
      · simp only [if_neg he]
        by_cases hek : e.1 = k
        · have hk : k ≠ key := hek ▸ he
          simp [get, hek, hk]
        · have hrest : ∀ l : Dict α, get (e :: l) k = get l k := fun l => by
            simp [get, hek]
          rw [hrest, hrest, ih]

theorem get_filter (d : Dict α) (p : Text × α → Bool) (k : Text)
    (hp : ∀ e ∈ d, e.1 = k → p e = true) : get (d.filter p) k = d.get k := by
  induction d with
  | nil => rfl
  | cons e rest ih =>
      have ih := ih fun e' he' => hp e' (List.mem_cons_of_mem _ he')
      by_cases hek : e.1 = k
      · rw [List.filter_cons_of_pos (hp e (List.mem_cons_self ..) hek)]
        simp [get, hek]
      · have hrest : ∀ l : Dict α, get (e :: l) k = get l k := fun l => by
          simp [get, hek]
        by_cases hpe : p e = true
        · rw [List.filter_cons_of_pos hpe, hrest, hrest, ih]
        · rw [List.filter_cons_of_neg hpe, ih, hrest]

theorem get_erase (d : Dict α) (key k : Text) :
    (d.erase key).get k = if k = key then none else d.get k := by
  split
  · next hk =>
      subst hk
      simp [get, erase]
  · next hk =>
      refine get_filter d _ k fun e _ he => ?_
      simp [he, hk]

theorem keys_set (d : Dict α) (key : Text) (value : α) :
    (d.set key value).map Prod.fst =
      if key ∈ d.map Prod.fst then d.map Prod.fst else d.map Prod.fst ++ [key] := by
  induction d with
  | nil => simp [set]
  | cons e rest ih =>
      simp only [set]
      by_cases he : e.1 = key
      · simp [he]
      · simp only [if_neg he, List.map_cons, ih, List.mem_cons, Ne.symm he, false_or]
        split <;> simp

theorem nodup_set {d : Dict α} (h : (d.map Prod.fst).Nodup) (key : Text) (value : α) :
    ((d.set key value).map Prod.fst).Nodup := by
  rw [keys_set]
  split
  · exact h
  · next hkey =>
      refine List.nodup_append.mpr ⟨h, List.nodup_singleton key, fun k hk k' hk' => ?_⟩
      rintro rfl
      exact hkey (List.mem_singleton.mp hk' ▸ hk)

theorem nodup_erase {d : Dict α} (h : (d.map Prod.fst).Nodup) (key : Text) :
    ((d.erase key).map Prod.fst).Nodup :=
  h.sublist ((List.filter_sublist).map Prod.fst)

theorem isSome_get_of_mem {d : Dict α} {key : Text} (h : key ∈ d.map Prod.fst) :
    (d.get key).isSome := by
  obtain ⟨e, he, rfl⟩ := List.mem_map.mp h
  simp only [get, Option.isSome_map]
  exact List.find?_isSome.mpr ⟨e, he, by simp⟩

theorem mem_of_get {d : Dict α} {k : Text} {v : α} (h : d.get k = some v) : (k, v) ∈ d := by
  obtain ⟨e, hfind, rfl⟩ := Option.map_eq_some_iff.mp h
  have hk : e.1 = k := by simpa using List.find?_some hfind
  exact hk ▸ List.mem_of_find?_eq_some hfind

theorem get_of_mem {d : Dict α} (hkeys : (d.map Prod.fst).Nodup) {e : Text × α} (he : e ∈ d) :
    d.get e.1 = some e.2 := by
  induction d with
  | nil => contradiction
  | cons e' rest ih =>
      obtain ⟨hother, hrest⟩ := List.nodup_cons.mp hkeys
      rcases List.mem_cons.mp he with rfl | he
      · simp [get]
      · have hne : e'.1 ≠ e.1 := fun heq => hother (List.mem_map.mpr ⟨e, he, heq.symm⟩)
        have hget := ih hrest he
        simp only [get, List.find?_cons, hne, decide_false] at hget ⊢
        exact hget

end Dict

/-! ## the state -/

/-- A buffer's state. -/
structure BufferState where
  channelUuid : Text
  pid : Nat
  pidStartTicks : Nat
  startedAt : Int
  lastHeartbeat : Int
  storagePath : Text
  httpPort : Nat
  viewers : List Text := []
  viewerHeartbeats : Dict Int := []
  accessToken : Option Text
  stopping : Bool := false
  stoppingSince : Option Int := none
  /-- `stopped_viewers`, which is absent where it would be empty. -/
  stoppedViewers : Dict Int := []
deriving DecidableEq, Repr

/-- A process: its pid and the time it was started at, which no two share. -/
abbrev ProcessId := Nat × Nat

namespace BufferState

/-- The buffer's `ffmpeg`. -/
def process (state : BufferState) : ProcessId := (state.pid, state.pidStartTicks)

/-- `_same_buffer_instance`. -/
def sameBufferInstance (a b : BufferState) : Bool :=
  a.pid == b.pid && a.startedAt == b.startedAt

end BufferState

/-- What `_classify_existing_buffer` says. -/
inductive Classification where
  | none
  | stopping
  | dead
  | staleConfig
  | reattach
deriving DecidableEq, Repr

/-- `_classify_existing_buffer`. -/
def classifyExistingBuffer (existing : Option BufferState) (isAlive : Bool) (now : Int)
    (expectedHttpPort : Nat) (expectedStoragePath : Text) : Classification :=
  match existing with
  | Option.none => .none
  | some existing =>
      if existing.stopping ∧ existing.stoppingSince.any (now - · < teardownGrace) then .stopping
      else if ¬ isAlive then .dead
      else if existing.stopping then .stopping
      else if existing.httpPort ≠ expectedHttpPort then .staleConfig
      else if existing.storagePath ≠ expectedStoragePath then .staleConfig
      else .reattach

/-- `_is_stale_access_token`: both tokens are there, and differ. -/
def isStaleAccessToken (state : BufferState) (supplied : Option Text) : Bool :=
  supplied.any (· ≠ []) && state.accessToken.any (· ≠ []) && state.accessToken != supplied

/-! ## viewers -/

/-- `_was_stopped_recently`. -/
def wasStoppedRecently (state : BufferState) (viewerId : Text) (now : Int) : Bool :=
  (state.stoppedViewers.get viewerId).any (now - · < stoppedViewerTtl)

/-- `_record_stopped_viewer`. -/
def recordStoppedViewer (state : BufferState) (viewerId : Text) (now : Int) : BufferState :=
  { state with
    stoppedViewers :=
      Dict.set (state.stoppedViewers.filter (now - ·.2 < stoppedViewerTtl)) viewerId now }

/-- `_clear_stopped_viewer`. -/
def clearStoppedViewer (state : BufferState) (viewerId : Text) : BufferState :=
  { state with stoppedViewers := Dict.erase state.stoppedViewers viewerId }

/-- A viewer listed, once. -/
def addViewer (viewers : List Text) (viewerId : Text) : List Text :=
  if viewerId ∈ viewers then viewers else viewers ++ [viewerId]

/-- `_apply_heartbeat`. -/
def applyHeartbeat (state : BufferState) (now : Int) (viewerId : Option Text) : BufferState :=
  match viewerId with
  | none => { state with lastHeartbeat := now }
  | some viewerId =>
      -- a late heartbeat of a viewer that has stopped is no heartbeat
      if viewerId ∉ state.viewers ∧ wasStoppedRecently state viewerId now then state
      else
        { state with
          lastHeartbeat := now
          viewers := addViewer state.viewers viewerId
          viewerHeartbeats := Dict.set state.viewerHeartbeats viewerId now }

/-- `_apply_read_heartbeat`. -/
def applyReadHeartbeat (state : BufferState) (now : Int) (viewerId : Option Text)
    (suppliedToken : Option Text) : Option BufferState :=
  if isStaleAccessToken state suppliedToken then none
  else
    -- a full list takes no viewer from a read
    let viewerId := viewerId.filter fun viewerId =>
      decide (viewerId ∈ state.viewers ∨ state.viewers.length < maxViewersAddedByReads)
    some (applyHeartbeat state now viewerId)

/-- `_drop_stale_viewers`, `none` when it drops none. -/
def dropStaleViewers (state : BufferState) (stale : Dict Int) : Option BufferState :=
  let gone := (stale.filter fun e =>
    decide (e.1 ∈ state.viewers) && state.viewerHeartbeats.get e.1 == some e.2).map Prod.fst
  if gone = [] then none
  else
    some
      { state with
        viewers := state.viewers.filter (· ∉ gone)
        viewerHeartbeats := state.viewerHeartbeats.filter (·.1 ∉ gone) }

/-- `drop_viewer` of `_stop_buffer`. -/
def dropViewer (state : BufferState) (viewerId : Text) (suppliedToken : Option Text) (now : Int) :
    Option BufferState :=
  if isStaleAccessToken state suppliedToken then none
  else
    let dropped :=
      if viewerId ∈ state.viewers then
        { state with
          viewers := state.viewers.erase viewerId
          viewerHeartbeats := Dict.erase state.viewerHeartbeats viewerId }
      else state
    some (recordStoppedViewer dropped viewerId now)

/-- `attach` of `_start_buffer_locked`, the buffer not being one that stops: the
buffer's stamp is read first, the viewer's own then. -/
def attach (state : BufferState) (viewerId : Option Text) (freshToken : Text)
    (now viewerNow : Int) : BufferState :=
  let state := { state with lastHeartbeat := now }
  let state :=
    match viewerId with
    | none => state
    | some viewerId =>
        clearStoppedViewer
          { state with
            viewers := addViewer state.viewers viewerId
            viewerHeartbeats := Dict.set state.viewerHeartbeats viewerId viewerNow } viewerId
  { state with accessToken := some (state.accessToken.getD freshToken) }

/-- When a teardown is called off at its marker: `abort_if`. -/
inductive AbortIf where
  | never
  /-- The last viewer's stop: somebody is listed again. -/
  | viewersListed
  /-- The reaper: a heartbeat has come since. -/
  | heartbeatSince (seen : Int)
deriving DecidableEq, Repr

/-- `abort_if(current)`. -/
def AbortIf.holds : AbortIf → BufferState → Bool
  | .never, _ => false
  | .viewersListed, current => current.viewers != []
  | .heartbeatSince seen, current => current.lastHeartbeat != seen

/-- The stopping marker. -/
def markStopping (state : BufferState) (now : Int) : BufferState :=
  { state with stopping := true, stoppingSince := some now }

/-! ## the same buffer -/

namespace BufferState

/-- The same buffer, whatever has become of its viewers and its marker. -/
structure Continues (old new : BufferState) : Prop where
  channelUuid : new.channelUuid = old.channelUuid
  process : new.process = old.process
  startedAt : new.startedAt = old.startedAt
  storagePath : new.storagePath = old.storagePath
  accessToken : ∀ token, old.accessToken = some token → new.accessToken = some token

theorem Continues.refl (state : BufferState) : state.Continues state :=
  ⟨rfl, rfl, rfl, rfl, fun _ h => h⟩

theorem Continues.same {old new : BufferState} (h : old.Continues new) :
    new.sameBufferInstance old = true := by
  have hpid : new.pid = old.pid := congrArg Prod.fst h.process
  simp [sameBufferInstance, hpid, h.startedAt]

theorem same_symm {a b : BufferState} (h : a.sameBufferInstance b = true) :
    b.sameBufferInstance a = true := by
  grind [sameBufferInstance]

theorem same_trans {a b c : BufferState} (h : a.sameBufferInstance b = true)
    (h' : b.sameBufferInstance c = true) : a.sameBufferInstance c = true := by
  grind [sameBufferInstance]

theorem Continues.trans {a b c : BufferState} (h : a.Continues b) (h' : b.Continues c) :
    a.Continues c where
  channelUuid := h'.channelUuid.trans h.channelUuid
  process := h'.process.trans h.process
  startedAt := h'.startedAt.trans h.startedAt
  storagePath := h'.storagePath.trans h.storagePath
  accessToken token ha := h'.accessToken token (h.accessToken token ha)

theorem continues_applyHeartbeat (state : BufferState) (now : Int) (viewerId : Option Text) :
    state.Continues (applyHeartbeat state now viewerId) := by
  cases viewerId with
  | none => exact ⟨rfl, rfl, rfl, rfl, fun _ h => h⟩
  | some viewerId =>
      simp only [applyHeartbeat]
      split
      · exact .refl state
      · exact ⟨rfl, rfl, rfl, rfl, fun _ h => h⟩

theorem continues_applyReadHeartbeat {state new : BufferState} {now : Int}
    {viewerId suppliedToken : Option Text}
    (h : applyReadHeartbeat state now viewerId suppliedToken = some new) : state.Continues new := by
  simp only [applyReadHeartbeat] at h
  split at h
  · contradiction
  · exact Option.some.inj h ▸ continues_applyHeartbeat state now _

theorem continues_dropStaleViewers {state new : BufferState} {stale : Dict Int}
    (h : dropStaleViewers state stale = some new) : state.Continues new := by
  simp only [dropStaleViewers] at h
  split at h
  · contradiction
  · exact Option.some.inj h ▸ ⟨rfl, rfl, rfl, rfl, fun _ h => h⟩

theorem continues_dropViewer {state new : BufferState} {viewerId : Text}
    {suppliedToken : Option Text} {now : Int}
    (h : dropViewer state viewerId suppliedToken now = some new) : state.Continues new := by
  simp only [dropViewer] at h
  split at h
  · contradiction
  · obtain rfl := Option.some.inj h
    split <;> exact ⟨rfl, rfl, rfl, rfl, fun _ h => h⟩

theorem dropViewer_current {state new : BufferState} {viewerId : Text}
    {suppliedToken : Option Text} {now : Int}
    (h : dropViewer state viewerId suppliedToken now = some new) :
    isStaleAccessToken new suppliedToken = false := by
  simp only [dropViewer] at h
  split at h
  · contradiction
  · next hcurrent =>
      obtain rfl := Option.some.inj h
      split <;> simpa [isStaleAccessToken, recordStoppedViewer] using hcurrent

theorem continues_attach (state : BufferState) (viewerId : Option Text) (token : Text)
    (now viewerNow : Int) : state.Continues (attach state viewerId token now viewerNow) := by
  cases viewerId <;> exact ⟨rfl, rfl, rfl, rfl, fun token h => by simp [attach, clearStoppedViewer, h]⟩

theorem continues_markStopping (state : BufferState) (now : Int) :
    state.Continues (markStopping state now) :=
  ⟨rfl, rfl, rfl, rfl, fun _ h => h⟩

/-! ### no viewer is listed twice -/

theorem nodup_addViewer {viewers : List Text} (h : viewers.Nodup) (viewerId : Text) :
    (addViewer viewers viewerId).Nodup := by
  rw [addViewer]
  split
  · exact h
  · next hnew =>
      refine List.nodup_append.mpr ⟨h, List.nodup_singleton viewerId, fun v hv v' hv' => ?_⟩
      rintro rfl
      exact hnew (List.mem_singleton.mp hv' ▸ hv)

theorem nodup_applyHeartbeat {state : BufferState} (h : state.viewers.Nodup) (now : Int)
    (viewerId : Option Text) : (applyHeartbeat state now viewerId).viewers.Nodup := by
  cases viewerId with
  | none => exact h
  | some viewerId =>
      rw [applyHeartbeat]
      split
      · exact h
      · exact nodup_addViewer h viewerId

theorem nodup_applyReadHeartbeat {state new : BufferState} {now : Int}
    {viewerId suppliedToken : Option Text} (h : state.viewers.Nodup)
    (hnew : applyReadHeartbeat state now viewerId suppliedToken = some new) :
    new.viewers.Nodup := by
  rw [applyReadHeartbeat] at hnew
  split at hnew
  · contradiction
  · exact Option.some.inj hnew ▸ nodup_applyHeartbeat h now _

theorem nodup_dropStaleViewers {state new : BufferState} {stale : Dict Int}
    (h : state.viewers.Nodup) (hnew : dropStaleViewers state stale = some new) :
    new.viewers.Nodup := by
  simp only [dropStaleViewers] at hnew
  split at hnew
  · contradiction
  · exact Option.some.inj hnew ▸ h.filter _

theorem nodup_dropViewer {state new : BufferState} {viewerId : Text}
    {suppliedToken : Option Text} {now : Int} (h : state.viewers.Nodup)
    (hnew : dropViewer state viewerId suppliedToken now = some new) : new.viewers.Nodup := by
  simp only [dropViewer] at hnew
  split at hnew
  · contradiction
  · obtain rfl := Option.some.inj hnew
    split
    · exact h.erase viewerId
    · exact h

theorem nodup_attach {state : BufferState} (h : state.viewers.Nodup) (viewerId : Option Text)
    (token : Text) (now viewerNow : Int) :
    (attach state viewerId token now viewerNow).viewers.Nodup := by
  cases viewerId with
  | none => exact h
  | some viewerId => exact nodup_addViewer h viewerId

end BufferState

end TimeshiftBuffer

end DispatcharrPvr
