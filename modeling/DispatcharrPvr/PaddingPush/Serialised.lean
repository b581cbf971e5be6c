import DispatcharrPvr.PaddingPush.Landing

/-!
# PaddingPush.Serialised

The client around the padding bookkeeping: `m_dvrSettingsMutex` serialises the
direct pushes, the background retries and the GET of a padding sync, and each
result is applied before the mutex is released.  `BeginPaddingEdit` and the
sync's final check take only the padding mutex, so they fall anywhere, also
between a PATCH and the application of its result.

A session is a `PaddingWorld` with the request that holds the mutex, the
sync's own progress and two records that the code does not keep: how many
failed retries have sent the value now parked (`tries`), and what each give-up
dropped (`drops`).  Every run of a session is a run of the world
(`world_run`), so the invariant of `PaddingPush.Landing` holds here as well.
-/

namespace DispatcharrPvr

open Runs PendingPaddingPush

/-! ## the session -/

/-- How far `SyncDvrPaddingFromDispatcharr` has come: `nextSeq` recorded, the
two values read, the check answered. -/
inductive PaddingSync
  | idle
  | started (seqAtStart : Nat)
  | read (seqAtStart : Nat) (value : Bool → Int)
  | checked (safe : Bool) (value : Bool → Int)

structure PaddingSession where
  world : PaddingWorld
  /-- The place in `world.sent` of the request that holds the settings mutex. -/
  sending : Option Nat := none
  sync : PaddingSync := .idle
  tries : Bool → Nat := fun _ => 0
  drops : List (PaddingEdit × Nat) := []

inductive SessionEvent
  | edit (isPre : Bool) (value : Int)
  /-- The `i`-th waiting direct push takes the settings mutex. -/
  | pushStart (i : Nat)
  /-- `SetDvrOffsetMinutesChosen` takes the settings mutex and its work list. -/
  | retryStart
  /-- The PATCH of the mutex's holder ends. -/
  | land (outcome : RequestOutcome)
  /-- The holder's result callback runs and the mutex is released. -/
  | apply
  | syncStart
  | syncGet
  | syncCheck
deriving DecidableEq, Repr

/-! ### what the code does not record -/

/-- What a request leaves parked before a give-up empties the sides. -/
def settled (state : PendingPaddingPush) : PaddingRequest → RequestOutcome → PendingPaddingPush
  | .direct isPre e, o => applyDirectPaddingPushResult state isPre e.value e.seq o.isOk
  | .retry sentPre sentPost, o => settlePaddingRetries state sentPre sentPost o.isOk

/-- The edit of a side that a background retry sent in vain. -/
def failedTry : PaddingRequest → RequestOutcome → Bool → Option PaddingEdit
  | .retry sentPre sentPost, o, q => if o.isOk then none else sentOf sentPre sentPost q
  | .direct _ _, _, _ => none

/-- The failed retries of a side's parked value: one more when this result was
one, none for a value parked by this result. -/
def triesAfter (s : PaddingSession) (r : PaddingRequest) (o : RequestOutcome) (q : Bool) : Nat :=
  let before := s.world.state.parked q
  let after := (settled s.world.state r o).parked q
  if after ≠ before then 0
  else if (failedTry r o q).isSome ∧ failedTry r o q = after then s.tries q + 1
  else s.tries q

/-- Whether the result makes `ApplyPaddingRetryResult` return `kGaveUp`. -/
def givesUp (maxRetries : Nat) (state : PendingPaddingPush) : PaddingRequest → RequestOutcome → Bool
  | .retry sentPre sentPost, o =>
      (applyPaddingRetryResult state sentPre sentPost o.isOk maxRetries).2 = .gaveUp
  | .direct _ _, _ => false

/-- The values a give-up drops, each with its failed retries. -/
def dropped (maxRetries : Nat) (s : PaddingSession) (r : PaddingRequest) (o : RequestOutcome) :
    List (PaddingEdit × Nat) :=
  if givesUp maxRetries s.world.state r o then
    [true, false].filterMap fun q =>
      ((settled s.world.state r o).parked q).map fun e => (e, triesAfter s r o q)
  else []

namespace PaddingSession

def init (server : Bool → Int) : PaddingSession := { world := .init server }

/-- Nobody holds the settings mutex. -/
def mutexFree (s : PaddingSession) : Bool := s.sending.isNone && s.world.landed.isEmpty

def step (maxRetries : Nat) (s : PaddingSession) : SessionEvent → Option PaddingSession
  | .edit isPre value =>
      (s.world.step maxRetries (.edit isPre value)).map fun world => { s with world }
  | .pushStart i =>
      if s.mutexFree && (s.world.sent[i]?.map (·.isDirect)).getD false then
        some { s with sending := some i }
      else none
  | .retryStart =>
      if s.mutexFree then
        (s.world.step maxRetries .retry).map fun world =>
          { s with world, sending := some s.world.sent.length }
      else none
  | .land o =>
      match s.sending with
      | none => none
      | some i =>
          (s.world.step maxRetries (.land i o)).map fun world => { s with world, sending := none }
  | .apply =>
      match s.world.landed with
      | [] => none
      | (r, o) :: _ =>
          (s.world.step maxRetries .report).map fun world =>
            { s with
              world
              tries := triesAfter s r o
              drops := s.drops ++ dropped maxRetries s r o }
  | .syncStart =>
      match s.sync with
      | .idle | .checked _ _ => some { s with sync := .started s.world.state.nextSeq }
      | _ => none
  | .syncGet =>
      match s.sync with
      | .started seq =>
          if s.mutexFree then some { s with sync := .read seq s.world.server } else none
      | _ => none
  | .syncCheck =>
      match s.sync with
      | .read seq value =>
          some { s with sync := .checked (isSafeToSyncPaddingFromServer s.world.state seq) value }
      | _ => none

/-! ### what each step does -/

section StepCases

variable {m : Nat} {s s' : PaddingSession}

theorem mutexFree_iff : s.mutexFree = true ↔ s.sending = none ∧ s.world.landed = [] := by
  simp [mutexFree]

theorem step_edit_eq {isPre : Bool} {value : Int} (h : step m s (.edit isPre value) = some s') :
    ∃ world, s.world.step m (.edit isPre value) = some world ∧ s' = { s with world } := by
  simp only [step] at h
  obtain ⟨world, hw, rfl⟩ := Option.map_eq_some_iff.mp h
  exact ⟨world, hw, rfl⟩

theorem step_pushStart_eq {i : Nat} (h : step m s (.pushStart i) = some s') :
    s.sending = none ∧ s.world.landed = [] ∧ s' = { s with sending := some i } := by
  simp only [step] at h
  split at h
  · next hc =>
      obtain ⟨hnone, hnil⟩ := mutexFree_iff.mp (Bool.and_eq_true_iff.mp hc).1
      exact ⟨hnone, hnil, (Option.some.inj h).symm⟩
  · contradiction

theorem step_retryStart_eq (h : step m s .retryStart = some s') :
    s.sending = none ∧ s.world.landed = [] ∧
      ∃ world, s.world.step m .retry = some world ∧
        s' = { s with world, sending := some s.world.sent.length } := by
  simp only [step] at h
  split at h
  · next hc =>
      obtain ⟨hnone, hnil⟩ := mutexFree_iff.mp hc
      obtain ⟨world, hw, rfl⟩ := Option.map_eq_some_iff.mp h
      exact ⟨hnone, hnil, world, hw, rfl⟩
  · contradiction

theorem step_land_eq {o : RequestOutcome} (h : step m s (.land o) = some s') :
    ∃ i world, s.sending = some i ∧ s.world.step m (.land i o) = some world ∧
      s' = { s with world, sending := none } := by
  simp only [step] at h
  split at h
  · contradiction
  · next i hi =>
      obtain ⟨world, hw, rfl⟩ := Option.map_eq_some_iff.mp h
      exact ⟨i, world, hi, hw, rfl⟩

theorem step_apply_eq (h : step m s .apply = some s') :
    ∃ r o landed world, s.world.landed = (r, o) :: landed ∧
      s.world.step m .report = some world ∧
      s' =
        { s with
          world
          tries := triesAfter s r o
          drops := s.drops ++ dropped m s r o } := by
  simp only [step] at h
  split at h
  · contradiction
  · next r o landed hl =>
      obtain ⟨world, hw, rfl⟩ := Option.map_eq_some_iff.mp h
      exact ⟨r, o, landed, world, hl, hw, rfl⟩

theorem step_syncStart_eq (h : step m s .syncStart = some s') :
    s' = { s with sync := .started s.world.state.nextSeq } := by
  simp only [step] at h
  split at h
  · exact (Option.some.inj h).symm
  · exact (Option.some.inj h).symm
  · contradiction

theorem step_syncGet_eq (h : step m s .syncGet = some s') :
    s.sending = none ∧ s.world.landed = [] ∧
      ∃ seq, s.sync = .started seq ∧ s' = { s with sync := .read seq s.world.server } := by
  simp only [step] at h
  split at h
  · next seq hseq =>
      split at h
      · next hc =>
          obtain ⟨hnone, hnil⟩ := mutexFree_iff.mp hc
          exact ⟨hnone, hnil, seq, hseq, (Option.some.inj h).symm⟩
      · contradiction
  · contradiction

theorem step_syncCheck_eq (h : step m s .syncCheck = some s') :
    ∃ seq value, s.sync = .read seq value ∧
      s' = { s with sync := .checked (isSafeToSyncPaddingFromServer s.world.state seq) value } := by
  simp only [step] at h
  split at h
  · next seq value hsync => exact ⟨seq, value, hsync, (Option.some.inj h).symm⟩
  · contradiction

/-- A session's step is a run of the world of at most one step. -/
theorem world_step {e : SessionEvent} (h : step m s e = some s') :
    ∃ es, run (PaddingWorld.step m) s.world es = some s'.world := by
  have one : ∀ {ev : PaddingEvent} {world : PaddingWorld}, s.world.step m ev = some world →
      run (PaddingWorld.step m) s.world [ev] = some world := by
    intro ev world hw
    rw [run_cons_eq_some_iff]
    exact ⟨world, hw, rfl⟩
  cases e with
  | edit p v => obtain ⟨world, hw, rfl⟩ := step_edit_eq h; exact ⟨_, one hw⟩
  | pushStart i => obtain ⟨-, -, rfl⟩ := step_pushStart_eq h; exact ⟨[], rfl⟩
  | retryStart => obtain ⟨-, -, world, hw, rfl⟩ := step_retryStart_eq h; exact ⟨_, one hw⟩
  | land o => obtain ⟨i, world, -, hw, rfl⟩ := step_land_eq h; exact ⟨_, one hw⟩
  | apply => obtain ⟨r, o, landed, world, -, hw, rfl⟩ := step_apply_eq h; exact ⟨_, one hw⟩
  | syncStart => obtain rfl := step_syncStart_eq h; exact ⟨[], rfl⟩
  | syncGet => obtain ⟨-, -, seq, -, rfl⟩ := step_syncGet_eq h; exact ⟨[], rfl⟩
  | syncCheck => obtain ⟨seq, value, -, rfl⟩ := step_syncCheck_eq h; exact ⟨[], rfl⟩

end StepCases

/-- Every run of a session is a run of its world. -/
theorem world_run {m : Nat} {s s' : PaddingSession} {events : List SessionEvent}
    (h : run (step m) s events = some s') :
    ∃ es, run (PaddingWorld.step m) s.world es = some s'.world :=
  simulates world world_step h

/-! ## the mutex -/

/-- One request at a time holds the settings mutex, and a retry's work list is
what is parked for as long as it does. -/
structure Exclusive (s : PaddingSession) : Prop where
  landed_le : s.world.landed.length ≤ 1
  landed_nil : ∀ i, s.sending = some i → s.world.landed = []
  retry_sending : ∀ j pre post, s.world.sent[j]? = some (.retry pre post) → s.sending = some j
  retry_parked : ∀ pre post, .retry pre post ∈ s.world.inFlight →
    ∀ q, s.world.state.parked q = sentOf pre post q

theorem exclusive_init (server : Bool → Int) : Exclusive (init server) where
  landed_le := Nat.zero_le _
  landed_nil := fun _ _ => rfl
  retry_sending := by intro j pre post h; simp [init, PaddingWorld.init] at h
  retry_parked := by intro pre post h; simp [init, PaddingWorld.init, PaddingWorld.inFlight] at h

section ExclusiveSteps

variable {m : Nat} {s s' : PaddingSession}

/-- While nobody holds the mutex no retry is on its way. -/
theorem Exclusive.isDirect_of_free (h : Exclusive s) (hsend : s.sending = none) :
    ∀ pre post, .retry pre post ∉ s.world.sent := by
  intro pre post hmem
  obtain ⟨j, hj⟩ := List.mem_iff_getElem?.mp hmem
  have := h.retry_sending j pre post hj
  rw [hsend] at this
  contradiction

theorem exclusive_edit (h : Exclusive s) {isPre : Bool} {value : Int}
    (hs : step m s (.edit isPre value) = some s') : Exclusive s' := by
  obtain ⟨world, hw, rfl⟩ := step_edit_eq hs
  obtain rfl := PaddingWorld.step_edit_eq hw
  refine ⟨h.landed_le, h.landed_nil, ?_, ?_⟩
  · intro j pre post hj
    rw [List.getElem?_append] at hj
    split at hj
    · exact h.retry_sending j pre post hj
    · rw [List.getElem?_singleton] at hj
      split at hj
      · have := Option.some.inj hj
        contradiction
      · contradiction
  · intro pre post hmem q
    rw [parked_beginPaddingEdit]
    refine h.retry_parked pre post ?_ q
    simp only [PaddingWorld.inFlight, List.mem_append, List.mem_singleton] at hmem ⊢
    rcases hmem with (hmem | hmem) | hmem
    · exact .inl hmem
    · contradiction
    · exact .inr hmem

theorem exclusive_pushStart (h : Exclusive s) {i : Nat}
    (hs : step m s (.pushStart i) = some s') : Exclusive s' := by
  obtain ⟨hsend, hnil, rfl⟩ := step_pushStart_eq hs
  refine ⟨h.landed_le, fun _ _ => hnil, ?_, h.retry_parked⟩
  intro j pre post hj
  exact absurd (List.mem_of_getElem? hj) (h.isDirect_of_free hsend pre post)

theorem exclusive_retryStart (h : Exclusive s) (hs : step m s .retryStart = some s') :
    Exclusive s' := by
  obtain ⟨hsend, hnil, world, hw, rfl⟩ := step_retryStart_eq hs
  obtain rfl := PaddingWorld.step_retry_eq hw
  have hfree := h.isDirect_of_free hsend
  refine ⟨h.landed_le, fun _ _ => hnil, ?_, ?_⟩
  · intro j pre post hj
    rw [List.getElem?_append] at hj
    split at hj
    · exact absurd (List.mem_of_getElem? hj) (hfree pre post)
    · next hlt =>
        rw [List.getElem?_singleton] at hj
        split at hj
        · have hle : s.world.sent.length ≤ j := Nat.not_lt.mp hlt
          show some s.world.sent.length = some j
          congr 1; omega
        · contradiction
  · intro pre post hmem q
    simp only [PaddingWorld.inFlight, hnil, List.map_nil, List.append_nil, List.mem_append,
      List.mem_singleton] at hmem
    rcases hmem with hmem | hmem
    · exact absurd hmem (hfree pre post)
    · obtain ⟨rfl, rfl⟩ := PaddingRequest.retry.inj hmem
      cases q <;> rfl

theorem exclusive_land (h : Exclusive s) {o : RequestOutcome} (hs : step m s (.land o) = some s') :
    Exclusive s' := by
  obtain ⟨i, world, hsend, hw, rfl⟩ := step_land_eq hs
  obtain ⟨r, hr, rfl⟩ := PaddingWorld.step_land_eq hw
  have hnil := h.landed_nil i hsend
  refine ⟨by simp [hnil], fun j hj => by contradiction, ?_, ?_⟩
  · intro j pre post hj
    -- the retry would have to be the request that has just landed
    rw [List.getElem?_eraseIdx] at hj
    split at hj
    · have := Option.some.inj (hsend.symm.trans (h.retry_sending j pre post hj))
      omega
    · have := Option.some.inj (hsend.symm.trans (h.retry_sending (j + 1) pre post hj))
      omega
  · intro pre post hmem
    refine h.retry_parked pre post ?_
    simp only [PaddingWorld.inFlight, hnil, List.nil_append, List.map_cons, List.map_nil,
      List.append_nil, List.mem_append, List.mem_singleton] at hmem ⊢
    rcases hmem with hmem | hmem
    · exact List.mem_of_mem_eraseIdx hmem
    · rw [hmem]; exact List.mem_of_getElem? hr

theorem exclusive_apply (h : Exclusive s) (hs : step m s .apply = some s') : Exclusive s' := by
  obtain ⟨r, o, landed, world, hl, hw, rfl⟩ := step_apply_eq hs
  obtain ⟨r', o', landed', hl', rfl⟩ := PaddingWorld.step_report_eq hw
  obtain ⟨hro, rfl⟩ := List.cons.inj (hl.symm.trans hl')
  obtain ⟨rfl, rfl⟩ := Prod.mk.inj hro
  have hlen := h.landed_le
  rw [hl, List.length_cons] at hlen
  have hnil : landed = [] := List.length_eq_zero_iff.mp (by omega)
  subst hnil
  have hsend : s.sending = none := by
    by_contra hne
    obtain ⟨i, hi⟩ := Option.ne_none_iff_exists'.mp hne
    rw [h.landed_nil i hi] at hl
    contradiction
  have hframe := PaddingWorld.applyResult_frame m { s.world with landed := [] } r o
  have hfree := h.isDirect_of_free hsend
  refine ⟨by simp [hframe.2.1], fun i hi => hframe.2.1, ?_, ?_⟩
  · intro j pre post hj
    rw [hframe.1] at hj
    exact absurd (List.mem_of_getElem? hj) (hfree pre post)
  · intro pre post hmem
    simp only [PaddingWorld.inFlight, hframe.1, hframe.2.1, List.map_nil, List.append_nil] at hmem
    exact absurd hmem (hfree pre post)

theorem exclusive_step (h : Exclusive s) {e : SessionEvent} (hs : step m s e = some s') :
    Exclusive s' := by
  cases e with
  | edit p v => exact exclusive_edit h hs
  | pushStart i => exact exclusive_pushStart h hs
  | retryStart => exact exclusive_retryStart h hs
  | land o => exact exclusive_land h hs
  | apply => exact exclusive_apply h hs
  | syncStart => obtain rfl := step_syncStart_eq hs; exact ⟨h.1, h.2, h.3, h.4⟩
  | syncGet => obtain ⟨-, -, seq, -, rfl⟩ := step_syncGet_eq hs; exact ⟨h.1, h.2, h.3, h.4⟩
  | syncCheck =>
      obtain ⟨seq, value, -, rfl⟩ := step_syncCheck_eq hs; exact ⟨h.1, h.2, h.3, h.4⟩

end ExclusiveSteps

/-- What every reachable session satisfies. -/
def Reachable (s : PaddingSession) : Prop := Exclusive s ∧ ∃ base, s.world.Inv base

theorem reachable_init (server : Bool → Int) : Reachable (init server) :=
  ⟨exclusive_init server, server, PaddingWorld.inv_init server⟩

theorem reachable_step {m : Nat} {s s' : PaddingSession} {e : SessionEvent} (h : Reachable s)
    (hs : step m s e = some s') : Reachable s' := by
  obtain ⟨es, hes⟩ := world_step hs
  exact ⟨exclusive_step h.1 hs,
    invariant (I := fun w => ∃ base, w.Inv base)
      (fun ⟨_, hI⟩ hw => PaddingWorld.inv_step hI hw) h.2 hes⟩

/-- The request whose result is due, with what the mutex promises of it. -/
theorem Reachable.due {m : Nat} {s s' : PaddingSession} (h : Reachable s)
    (hs : step m s .apply = some s') :
    ∃ r o, s.world.landed = [(r, o)] ∧ (∀ q e, r.sent q = some e → Known s.world.state q e) ∧
      (∀ pre post, r = .retry pre post → ∀ q, s.world.state.parked q = sentOf pre post q) ∧
      s' =
        { s with
          world := PaddingWorld.applyResult m { s.world with landed := [] } r o
          tries := triesAfter s r o
          drops := s.drops ++ dropped m s r o } := by
  obtain ⟨hex, base, hI⟩ := h
  obtain ⟨r, o, landed, world, hl, hw, rfl⟩ := step_apply_eq hs
  obtain ⟨r', o', landed', hl', rfl⟩ := PaddingWorld.step_report_eq hw
  obtain ⟨hro, rfl⟩ := List.cons.inj (hl.symm.trans hl')
  obtain ⟨rfl, rfl⟩ := Prod.mk.inj hro
  have hlen := hex.landed_le
  rw [hl, List.length_cons] at hlen
  have hnil : landed = [] := List.length_eq_zero_iff.mp (by omega)
  subst hnil
  have hmem : r ∈ s.world.inFlight := by simp [PaddingWorld.inFlight, hl]
  refine ⟨r, o, hl, hI.known_flight r hmem, fun pre post hr => ?_, rfl⟩
  exact hex.retry_parked pre post (hr ▸ hmem)

/-! ## giving up -/

/-- Giving up is fair: each dropped value was sent by as many failed retries
as the limit says, and a parked value is charged only with retries that sent
it. -/
structure Fair (maxRetries : Nat) (s : PaddingSession) : Prop where
  drops : ∀ d ∈ s.drops, maxRetries ≤ d.2
  charged : ∀ q, (s.world.state.parked q).isSome → s.world.state.retries ≤ s.tries q

/-- A failed retry comes back before a newer edit of a side it sent has begun. -/
def NoNewerEdit (s : PaddingSession) : SessionEvent → Prop
  | .apply =>
      match s.world.landed with
      | (.retry sentPre sentPost, o) :: _ =>
          o.isOk = true ∨
            (SentIsNewest s.world.state true sentPre ∧ SentIsNewest s.world.state false sentPost)
      | _ => True
  | _ => True

instance (s : PaddingSession) (e : SessionEvent) : Decidable (NoNewerEdit s e) := by
  unfold NoNewerEdit
  split
  · split <;> infer_instance
  · infer_instance

theorem noNewerEdit_of_ne_apply {s : PaddingSession} {e : SessionEvent} (he : e ≠ .apply) :
    NoNewerEdit s e := by
  cases e with
  | apply => contradiction
  | _ => trivial

section GiveUp

variable {m : Nat} {s : PaddingSession}

/-- A direct push's result charges nobody. -/
theorem fair_direct {p : Bool} {e : PaddingEdit} {o : RequestOutcome} (hF : Fair m s)
    (hp : ∀ q x, s.world.state.parked q = some x → Known s.world.state q x)
    (he : Known s.world.state p e) (q : Bool)
    (hq : ((applyDirectPaddingPushResult s.world.state p e.value e.seq o.isOk).parked q).isSome) :
    (applyDirectPaddingPushResult s.world.state p e.value e.seq o.isOk).retries ≤
      triesAfter s (.direct p e) o q := by
  obtain ⟨n, hn, -⟩ := id he
  have hafter := parked_applyDirect q o.isOk he hn (hp p)
  rw [retries_applyDirect o.isOk he hn]
  split
  · next hkeep =>
      -- the count is kept only where the parked value is
      have hsame : (applyDirectPaddingPushResult s.world.state p e.value e.seq o.isOk).parked q =
          s.world.state.parked q := by
        rw [hafter]
        by_cases hpq : p = q
        · subst hpq
          rw [if_pos rfl]
          by_cases hok : o.isOk = true ∧ e = n
          · rw [hafter, if_pos rfl, if_pos hok] at hq
            contradiction
          · have hseq := hkeep.resolve_left hok
            obtain ⟨x, hx, hxn⟩ := Option.map_eq_some_iff.mp hseq
            rw [if_neg hok, hx, ((hp p x hx).seq_eq_iff hn).mp hxn]
        · rw [if_neg hpq]
      have htries : triesAfter s (.direct p e) o q = s.tries q := by
        simp [triesAfter, settled, failedTry, hsame]
      rw [htries]
      exact hF.charged q (by rw [← hsame]; exact hq)
  · exact Nat.zero_le _

variable {pre post : Option PaddingEdit} {o : RequestOutcome}

/-- A failed retry of the newest edits leaves both sides as they are and
counts one try against each. -/
theorem settled_of_newest (hp : ∀ q, s.world.state.parked q = sentOf pre post q)
    (hk : ∀ q x, sentOf pre post q = some x → Known s.world.state q x) (ho : o.isOk = false)
    (hc : SentIsNewest s.world.state true pre ∧ SentIsNewest s.world.state false post) (q : Bool) :
    (settlePaddingRetries s.world.state pre post false).parked q = s.world.state.parked q ∧
      ((s.world.state.parked q).isSome → triesAfter s (.retry pre post) o q = s.tries q + 1) := by
  have hsettle := parked_settlePaddingRetries q false hk
    (fun q x hx => hk q x (by rw [← hp q]; exact hx))
  have hnew : SentIsNewest s.world.state q (sentOf pre post q) := by
    cases q
    · exact hc.2
    · exact hc.1
  have hsame : (settlePaddingRetries s.world.state pre post false).parked q =
      s.world.state.parked q := by
    rw [hsettle, hp q]
    rcases hnew with hnone | hsome
    · rw [hnone]; rfl
    · rw [hsome]; cases s.world.state.newest q <;> simp [settledEdit]
  refine ⟨hsame, fun hsome => ?_⟩
  simp only [triesAfter, settled, failedTry, ho, hsame, Bool.false_eq_true, if_false, ← hp q]
  simp [hsome]

/-- A failed retry of an older edit parks the newer one, charged with nothing. -/
theorem settled_of_newer (hp : ∀ q, s.world.state.parked q = sentOf pre post q)
    (hk : ∀ q x, sentOf pre post q = some x → Known s.world.state q x) (ho : o.isOk = false)
    {q : Bool} (hc : ¬ SentIsNewest s.world.state q (sentOf pre post q)) :
    ∃ n, (settlePaddingRetries s.world.state pre post false).parked q = some n ∧
      triesAfter s (.retry pre post) o q = 0 := by
  have hsettle := parked_settlePaddingRetries q false hk
    (fun q x hx => hk q x (by rw [← hp q]; exact hx))
  simp only [SentIsNewest, not_or] at hc
  obtain ⟨e, he⟩ := Option.ne_none_iff_exists'.mp hc.1
  obtain ⟨n, hn, -⟩ := hk q e he
  rw [he, hn] at hc
  have hafter : (settlePaddingRetries s.world.state pre post false).parked q = some n := by
    rw [hsettle, he, hn]
    simp only [settledEdit, if_neg hc.2]
  refine ⟨n, hafter, ?_⟩
  have hne : some n ≠ s.world.state.parked q := by
    rw [hp q, he]; exact fun h => hc.2 h.symm
  simp only [triesAfter, settled, ho, hafter, if_pos hne]

end GiveUp

section GiveUpSteps

variable {m : Nat} {s s' : PaddingSession}

section Failed

variable {pre post : Option PaddingEdit} {o : RequestOutcome}

/-- A failed retry that reaches the limit drops what its settled sides hold. -/
theorem apply_gaveUp (ho : o.isOk = false)
    (hle : m ≤ (settlePaddingRetries s.world.state pre post false).retries + 1) :
    (∀ q, (PaddingWorld.applyResult m { s.world with landed := [] } (.retry pre post)
        o).state.parked q = none) ∧
      ∀ d, d ∈ dropped m s (.retry pre post) o ↔
        ∃ q e, (settlePaddingRetries s.world.state pre post false).parked q = some e ∧
          d = (e, triesAfter s (.retry pre post) o q) := by
  have hsnd := applyPaddingRetryResult_snd s.world.state pre post false m
  rw [if_neg Bool.false_ne_true, if_pos hle] at hsnd
  refine ⟨fun q => ?_, fun d => ?_⟩
  · rw [(PaddingWorld.applyResult_retry { s.world with landed := [] } m pre post o).1, ho,
      parked_applyPaddingRetryResult, if_pos hsnd]
  · simp only [dropped, givesUp, ho, hsnd, decide_true, if_true, settled, List.mem_filterMap,
      List.mem_cons, List.not_mem_nil, or_false, Option.map_eq_some_iff]
    constructor
    · rintro ⟨q, -, e, he, rfl⟩; exact ⟨q, e, he, rfl⟩
    · rintro ⟨q, e, he, rfl⟩; exact ⟨q, by cases q <;> simp, e, he, rfl⟩

/-- A failed retry below the limit leaves the settled sides parked. -/
theorem apply_retryLater (ho : o.isOk = false)
    (hlt : ¬ m ≤ (settlePaddingRetries s.world.state pre post false).retries + 1) :
    (∀ q, (PaddingWorld.applyResult m { s.world with landed := [] } (.retry pre post)
        o).state.parked q = (settlePaddingRetries s.world.state pre post false).parked q) ∧
      (PaddingWorld.applyResult m { s.world with landed := [] } (.retry pre post)
        o).state.retries = (settlePaddingRetries s.world.state pre post false).retries + 1 ∧
      dropped m s (.retry pre post) o = [] := by
  have hsnd := applyPaddingRetryResult_snd s.world.state pre post false m
  rw [if_neg Bool.false_ne_true, if_neg hlt] at hsnd
  have hne : ¬ PaddingRetryOutcome.retryLater = .gaveUp := by decide
  rw [(PaddingWorld.applyResult_retry { s.world with landed := [] } m pre post o).1, ho]
  refine ⟨fun q => ?_, ?_, ?_⟩
  · rw [parked_applyPaddingRetryResult, hsnd, if_neg hne]
  · rw [retries_applyPaddingRetryResult, hsnd, if_pos rfl]
  · simp [dropped, givesUp, ho, hsnd]

end Failed

theorem fair_apply (hR : Reachable s) (hF : Fair m s) (hC : NoNewerEdit s .apply)
    (hs : step m s .apply = some s') : Fair m s' := by
  obtain ⟨r, o, hl, hk, hp, rfl⟩ := hR.due hs
  obtain ⟨-, base, hI⟩ := hR
  cases r with
  | direct p e =>
      refine ⟨?_, fun q hq => ?_⟩
      · simp only [dropped, givesUp, Bool.false_eq_true, if_false, List.append_nil]
        exact hF.drops
      · exact fair_direct hF hI.known_parked (hk p e (by simp [PaddingRequest.sent])) q hq
  | retry pre post =>
      have hp := hp pre post rfl
      cases ho : o.isOk with
      | true =>
          have hsnd := applyPaddingRetryResult_snd s.world.state pre post true m
          have hne : ¬ PaddingRetryOutcome.sent = .gaveUp := by decide
          refine ⟨?_, fun q _ => ?_⟩
          · simp only [dropped, givesUp, ho, hsnd, if_true, hne, decide_false, Bool.false_eq_true,
              if_false, List.append_nil]
            exact hF.drops
          · have hstate := (PaddingWorld.applyResult_retry { s.world with landed := [] } m pre post o).1
            rw [ho] at hstate
            have hzero : (applyPaddingRetryResult s.world.state pre post true m).1.retries = 0 := by
              rw [retries_applyPaddingRetryResult, hsnd]; rfl
            rw [hstate, hzero]
            exact Nat.zero_le _
      | false =>
          simp only [NoNewerEdit, hl, ho, Bool.false_eq_true, false_or] at hC
          have hsame := fun q => settled_of_newest (o := o) hp hk ho hC q
          have hretries : (settlePaddingRetries s.world.state pre post false).retries =
              s.world.state.retries := by
            rw [retries_settlePaddingRetries false hk hp, if_pos hC]
          by_cases hle : m ≤ (settlePaddingRetries s.world.state pre post false).retries + 1
          · obtain ⟨hnone, hdrop⟩ := apply_gaveUp ho hle
            refine ⟨fun d hd => ?_, fun q hq => ?_⟩
            · rcases List.mem_append.mp hd with hd | hd
              · exact hF.drops d hd
              · obtain ⟨q, e, he, rfl⟩ := (hdrop d).mp hd
                rw [(hsame q).1] at he
                have hsome : (s.world.state.parked q).isSome := by rw [he]; rfl
                have hcharged := hF.charged q hsome
                rw [(hsame q).2 hsome]
                omega
            · rw [hnone q] at hq; contradiction
          · obtain ⟨hparked, hcount, hdrop⟩ := apply_retryLater ho hle
            refine ⟨?_, fun q hq => ?_⟩
            · rw [hdrop, List.append_nil]; exact hF.drops
            · rw [hparked q, (hsame q).1] at hq
              have hcharged := hF.charged q hq
              have htries := (hsame q).2 hq
              rw [hcount]
              show _ ≤ triesAfter s (.retry pre post) o q
              omega

theorem not_fair_apply (hm : 1 ≤ m) (hR : Reachable s) (hC : ¬ NoNewerEdit s .apply)
    (hs : step m s .apply = some s') : ¬ Fair m s' := by
  obtain ⟨r, o, hl, hk, hp, rfl⟩ := hR.due hs
  cases r with
  | direct p e => simp [NoNewerEdit, hl] at hC
  | retry pre post =>
      have hp := hp pre post rfl
      simp only [NoNewerEdit, hl, not_or, Bool.not_eq_true] at hC
      obtain ⟨ho, hC⟩ := hC
      have hretries : (settlePaddingRetries s.world.state pre post false).retries = 0 := by
        rw [retries_settlePaddingRetries false hk hp, if_neg hC]
      obtain ⟨q, hq⟩ : ∃ q, ¬ SentIsNewest s.world.state q (sentOf pre post q) := by
        by_contra hall
        rw [not_exists] at hall
        exact hC ⟨Decidable.not_not.mp (hall true), Decidable.not_not.mp (hall false)⟩
      obtain ⟨n, hn, htries⟩ := settled_of_newer hp hk ho hq
      intro hF
      by_cases hle : m ≤ (settlePaddingRetries s.world.state pre post false).retries + 1
      · -- dropped without ever having been sent by a retry
        obtain ⟨-, hdrop⟩ := apply_gaveUp ho hle
        have hle := hF.drops _ (List.mem_append_right _ ((hdrop _).mpr ⟨q, n, hn, rfl⟩))
        rw [htries] at hle
        omega
      · -- parked, and charged with the older edit's retry
        obtain ⟨hparked, hcount, -⟩ := apply_retryLater ho hle
        have hle : _ ≤ triesAfter s (.retry pre post) o q :=
          hF.charged q (by rw [hparked q, hn]; rfl)
        rw [hcount, htries] at hle
        omega

/-- Only the application of a result changes what is parked, the retry count
or the records. -/
theorem fair_of_ne_apply {e : SessionEvent} (hF : Fair m s) (he : e ≠ .apply)
    (hs : step m s e = some s') : Fair m s' := by
  cases e with
  | edit p v =>
      obtain ⟨world, hw, rfl⟩ := step_edit_eq hs
      obtain rfl := PaddingWorld.step_edit_eq hw
      refine ⟨hF.drops, fun q hq => ?_⟩
      rw [parked_beginPaddingEdit] at hq
      rw [retries_beginPaddingEdit]
      exact hF.charged q hq
  | pushStart i => obtain ⟨-, -, rfl⟩ := step_pushStart_eq hs; exact ⟨hF.1, hF.2⟩
  | retryStart =>
      obtain ⟨-, -, world, hw, rfl⟩ := step_retryStart_eq hs
      obtain rfl := PaddingWorld.step_retry_eq hw
      exact ⟨hF.1, hF.2⟩
  | land o =>
      obtain ⟨i, world, -, hw, rfl⟩ := step_land_eq hs
      obtain ⟨r, -, rfl⟩ := PaddingWorld.step_land_eq hw
      exact ⟨hF.1, hF.2⟩
  | apply => contradiction
  | syncStart => obtain rfl := step_syncStart_eq hs; exact ⟨hF.1, hF.2⟩
  | syncGet => obtain ⟨-, -, seq, -, rfl⟩ := step_syncGet_eq hs; exact ⟨hF.1, hF.2⟩
  | syncCheck => obtain ⟨seq, value, -, rfl⟩ := step_syncCheck_eq hs; exact ⟨hF.1, hF.2⟩

end GiveUpSteps

/-- **When giving up is fair**: in a run of a session, every state is fair
exactly when no failed retry comes back after a newer edit of a side it sent
has begun. -/
theorem giveUp_fair_iff {m : Nat} (hm : 1 ≤ m) {server : Bool → Int} {events : List SessionEvent}
    {s : PaddingSession} (h : run (step m) (init server) events = some s) :
    Meets (step m) NoNewerEdit (init server) events ↔
      ∀ es s', es <+: events → run (step m) (init server) es = some s' → Fair m s' := by
  have hkeep : ∀ {s e s'}, Reachable s ∧ Fair m s → NoNewerEdit s e → step m s e = some s' →
      Reachable s' ∧ Fair m s' := by
    intro s e s' ⟨hR, hF⟩ hC hs
    refine ⟨reachable_step hR hs, ?_⟩
    by_cases he : e = .apply
    · subst he; exact fair_apply hR hF hC hs
    · exact fair_of_ne_apply hF he hs
  have hbreak : ∀ {s e s'}, Reachable s ∧ Fair m s → ¬ NoNewerEdit s e → step m s e = some s' →
      ¬ (Reachable s' ∧ Fair m s') := by
    intro s e s' ⟨hR, _⟩ hC hs ⟨_, hF'⟩
    by_cases he : e = .apply
    · subst he; exact not_fair_apply hm hR hC hs hF'
    · exact absurd (noNewerEdit_of_ne_apply he) hC
  have hinit : Reachable (init server) ∧ Fair m (init server) := by
    refine ⟨reachable_init server, fun d hd => by simp [init] at hd, fun q _ => ?_⟩
    exact Nat.zero_le _
  rw [meets_iff hkeep hbreak hinit h]
  constructor
  · intro hall es s' hes hrun; exact (hall es s' hes hrun).2
  · intro hall es s' hes hrun
    exact ⟨invariant reachable_step (reachable_init server) hrun, hall es s' hes hrun⟩

/-- The end padding's edit keeps its three tries while the start padding's own
is retried and given up with it. -/
theorem giveUp_fair_iff_both_sides :
    ∃ s, run (step 3) (init fun _ => 0)
        [.edit true 5, .pushStart 0, .land .failedNotLanded, .apply, .retryStart,
          .land .failedNotLanded, .apply, .edit false 9, .pushStart 0, .land .failedLanded,
          .apply] = some s ∧
      Fair 3 s := by
  have hrun : run (step 3) (init fun _ => 0)
      [.edit true 5, .pushStart 0, .land .failedNotLanded, .apply, .retryStart,
        .land .failedNotLanded, .apply, .edit false 9, .pushStart 0, .land .failedLanded,
        .apply] = some _ := rfl
  exact ⟨_, hrun, (giveUp_fair_iff (by decide) hrun).mp (by decide) _ _ List.prefix_rfl hrun⟩

/-- A retry of the value 5 fails after the user has changed it to 7: the new
value is dropped after two retries of its own instead of three. -/
theorem giveUp_unfair :
    ∃ s, run (step 3) (init fun _ => 0)
        [.edit true 5, .pushStart 0, .land .failedNotLanded, .apply, -- 5 is parked
          .retryStart, .edit true 7, .land .failedNotLanded, .apply, -- and 7 with one try less
          .pushStart 0, .land .failedNotLanded, .apply,
          .retryStart, .land .failedNotLanded, .apply,
          .retryStart, .land .failedNotLanded, .apply] = some s ∧
      s.drops = [(⟨7, 2⟩, 2)] ∧ ¬ Fair 3 s := by
  refine ⟨_, rfl, rfl, fun h => ?_⟩
  exact absurd (h.drops (⟨7, 2⟩, 2) (by decide)) (by decide)

end PaddingSession

end DispatcharrPvr
