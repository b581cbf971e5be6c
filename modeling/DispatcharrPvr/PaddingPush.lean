/-!
# PaddingPush

The bookkeeping of DVR padding edits (`PaddingPush.h`).  Several edits of one
side can be in flight at once and a push that fails may have landed anyway,
so everything is decided from the *newest* edit made: only its own success
clears the parked value, and any other result parks it again for the
background retry.

The state is the source's struct.  Sequence numbers and counters are `Nat`:
the source's `uint64_t nextSeq` would need 2^64 edits in one session to wrap.

Proofs read the state per side, through `parked` (the value waiting for the
background retry together with the edit it came from) and `newest`; one group
of lemmas per function says what it does to these and to the counters, and
no later module unfolds a function of this one.
-/

namespace DispatcharrPvr

/-- One DVR padding value with the sequence number of the user edit it came
from. -/
structure PaddingEdit where
  value : Int
  seq : Nat
deriving DecidableEq, Repr

/-- `PendingPaddingPush`: the parked value of each side with its edit's
number, the newest edit made per side, and the counters. -/
structure PendingPaddingPush where
  pre : Option Int := none
  post : Option Int := none
  preSeq : Nat := 0
  postSeq : Nat := 0
  preNewest : Option PaddingEdit := none
  postNewest : Option PaddingEdit := none
  nextSeq : Nat := 0
  retries : Nat := 0
  inFlightEdits : Nat := 0
deriving DecidableEq, Repr

/-- `PaddingRetryOutcome`. -/
inductive PaddingRetryOutcome
  | sent
  | retryLater
  | gaveUp
deriving DecidableEq, Repr

namespace PendingPaddingPush

/-- `HasPending()`. -/
def hasPending (s : PendingPaddingPush) : Bool := s.pre.isSome || s.post.isSome

/- The source picks a side's fields with `isPre ? state.pre : state.post`. -/

def side (s : PendingPaddingPush) (isPre : Bool) : Option Int :=
  if isPre then s.pre else s.post

def sideSeq (s : PendingPaddingPush) (isPre : Bool) : Nat :=
  if isPre then s.preSeq else s.postSeq

def newest (s : PendingPaddingPush) (isPre : Bool) : Option PaddingEdit :=
  if isPre then s.preNewest else s.postNewest

def setSide (s : PendingPaddingPush) (isPre : Bool) (v : Option Int) : PendingPaddingPush :=
  if isPre then { s with pre := v } else { s with post := v }

def setSideSeq (s : PendingPaddingPush) (isPre : Bool) (q : Nat) : PendingPaddingPush :=
  if isPre then { s with preSeq := q } else { s with postSeq := q }

def setNewest (s : PendingPaddingPush) (isPre : Bool) (e : PaddingEdit) : PendingPaddingPush :=
  if isPre then { s with preNewest := some e } else { s with postNewest := some e }

/-- The value parked for a side as the edit it came from. -/
def parked (s : PendingPaddingPush) (isPre : Bool) : Option PaddingEdit :=
  (s.side isPre).map fun v => ⟨v, s.sideSeq isPre⟩

/-- One direct push fewer in flight; the count never goes below zero. -/
def endDirectPush (s : PendingPaddingPush) : PendingPaddingPush :=
  if 0 < s.inFlightEdits then { s with inFlightEdits := s.inFlightEdits - 1 } else s

end PendingPaddingPush

/-! ## the functions of the source -/

/-- `BeginPaddingEdit`: the user made an edit, its push has not started.
Returns the new state and the edit's number. -/
def beginPaddingEdit (state : PendingPaddingPush) (isPre : Bool) (value : Int) :
    PendingPaddingPush × Nat :=
  let seq := state.nextSeq + 1
  let state := { state with nextSeq := seq }
  let state := state.setNewest isPre ⟨value, seq⟩
  ({ state with inFlightEdits := state.inFlightEdits + 1 }, seq)

/-- `ParkNewestPaddingEdit`: parks the newest edit of one side, as a fresh
chance when it was not already parked. -/
def parkNewestPaddingEdit (state : PendingPaddingPush) (isPre : Bool) : PendingPaddingPush :=
  match state.newest isPre with
  | none => state
  | some newest =>
      let state :=
        if (state.side isPre).isNone || state.sideSeq isPre != newest.seq then
          { state with retries := 0 }
        else state
      (state.setSide isPre (some newest.value)).setSideSeq isPre newest.seq

/-- `ApplyDirectPaddingPushResult`: the direct push of edit `seq` finished. -/
def applyDirectPaddingPushResult (state : PendingPaddingPush) (isPre : Bool) (value : Int)
    (seq : Nat) (ok : Bool) : PendingPaddingPush :=
  let state := state.endDirectPush
  let newest : PaddingEdit :=
    match state.newest isPre with
    | some n => if n.seq < seq then ⟨value, seq⟩ else n
    | none => ⟨value, seq⟩ -- a caller that never called BeginPaddingEdit()
  let state := state.setNewest isPre newest
  if ok && seq == newest.seq then
    if (state.side isPre).isSome && decide (state.sideSeq isPre ≤ seq) then
      state.setSide isPre none
    else state
  else parkNewestPaddingEdit state isPre

/-- `PendingPaddingEdits`: what the background retry should send. -/
def pendingPaddingEdits (state : PendingPaddingPush) : Option PaddingEdit × Option PaddingEdit :=
  (state.pre.map fun v => ⟨v, state.preSeq⟩, state.post.map fun v => ⟨v, state.postSeq⟩)

/-- `IsSafeToSyncPaddingFromServer`. -/
def isSafeToSyncPaddingFromServer (state : PendingPaddingPush) (nextSeqAtStart : Nat) : Bool :=
  !state.hasPending && state.inFlightEdits == 0 && state.nextSeq == nextSeqAtStart

/-- The `settle` lambda of `ApplyPaddingRetryResult`: one side of a finished
retry. -/
def settlePaddingRetry (state : PendingPaddingPush) (isPre : Bool) (sent : Option PaddingEdit)
    (succeeded : Bool) : PendingPaddingPush :=
  match sent with
  | none => state
  | some sent =>
      let sentIsNewest :=
        match state.newest isPre with
        | none => true
        | some n => n.seq == sent.seq
      if succeeded && sentIsNewest then
        if (state.side isPre).isSome && state.sideSeq isPre == sent.seq then
          state.setSide isPre none
        else state
      else if !sentIsNewest then parkNewestPaddingEdit state isPre
      else state

/-- Both sides of a finished retry, before the retry count is looked at. -/
def settlePaddingRetries (state : PendingPaddingPush) (sentPre sentPost : Option PaddingEdit)
    (succeeded : Bool) : PendingPaddingPush :=
  settlePaddingRetry (settlePaddingRetry state true sentPre succeeded) false sentPost succeeded

/-- `ApplyPaddingRetryResult`: a background retry that sent `sentPre` and
`sentPost` finished. -/
def applyPaddingRetryResult (state : PendingPaddingPush) (sentPre sentPost : Option PaddingEdit)
    (ok : Bool) (maxRetries : Nat) : PendingPaddingPush × PaddingRetryOutcome :=
  if ok then
    ({ settlePaddingRetries state sentPre sentPost true with retries := 0 }, .sent)
  else
    let state := settlePaddingRetries state sentPre sentPost false
    let state := { state with retries := state.retries + 1 }
    if maxRetries ≤ state.retries then
      ({ state with pre := none, post := none, retries := 0 }, .gaveUp)
    else (state, .retryLater)

/-! ## what each function does to a side -/

open PendingPaddingPush

section Setters

variable (s : PendingPaddingPush) (p q : Bool)

@[simp] theorem side_setSide (v : Option Int) :
    (s.setSide p v).side q = if p = q then v else s.side q := by
  cases p <;> cases q <;> rfl

@[simp] theorem sideSeq_setSide (v : Option Int) : (s.setSide p v).sideSeq q = s.sideSeq q := by
  cases p <;> cases q <;> rfl

@[simp] theorem newest_setSide (v : Option Int) : (s.setSide p v).newest q = s.newest q := by
  cases p <;> cases q <;> rfl

@[simp] theorem side_setSideSeq (n : Nat) : (s.setSideSeq p n).side q = s.side q := by
  cases p <;> cases q <;> rfl

@[simp] theorem sideSeq_setSideSeq (n : Nat) :
    (s.setSideSeq p n).sideSeq q = if p = q then n else s.sideSeq q := by
  cases p <;> cases q <;> rfl

@[simp] theorem newest_setSideSeq (n : Nat) : (s.setSideSeq p n).newest q = s.newest q := by
  cases p <;> cases q <;> rfl

@[simp] theorem nextSeq_setSide (v : Option Int) : (s.setSide p v).nextSeq = s.nextSeq := by
  cases p <;> rfl

@[simp] theorem nextSeq_setSideSeq (n : Nat) : (s.setSideSeq p n).nextSeq = s.nextSeq := by
  cases p <;> rfl

@[simp] theorem retries_setSide (v : Option Int) : (s.setSide p v).retries = s.retries := by
  cases p <;> rfl

@[simp] theorem retries_setSideSeq (n : Nat) : (s.setSideSeq p n).retries = s.retries := by
  cases p <;> rfl

@[simp] theorem inFlightEdits_setSide (v : Option Int) :
    (s.setSide p v).inFlightEdits = s.inFlightEdits := by
  cases p <;> rfl

@[simp] theorem inFlightEdits_setSideSeq (n : Nat) :
    (s.setSideSeq p n).inFlightEdits = s.inFlightEdits := by
  cases p <;> rfl

end Setters

section EndDirectPush

variable (s : PendingPaddingPush) (q : Bool)

@[simp] theorem side_endDirectPush : s.endDirectPush.side q = s.side q := by
  unfold endDirectPush; split <;> rfl

@[simp] theorem sideSeq_endDirectPush : s.endDirectPush.sideSeq q = s.sideSeq q := by
  unfold endDirectPush; split <;> rfl

@[simp] theorem newest_endDirectPush : s.endDirectPush.newest q = s.newest q := by
  unfold endDirectPush; split <;> rfl

@[simp] theorem parked_endDirectPush : s.endDirectPush.parked q = s.parked q := by
  unfold endDirectPush; split <;> rfl

@[simp] theorem nextSeq_endDirectPush : s.endDirectPush.nextSeq = s.nextSeq := by
  unfold endDirectPush; split <;> rfl

@[simp] theorem retries_endDirectPush : s.endDirectPush.retries = s.retries := by
  unfold endDirectPush; split <;> rfl

@[simp] theorem inFlightEdits_endDirectPush :
    s.endDirectPush.inFlightEdits = s.inFlightEdits - 1 := by
  unfold endDirectPush
  split
  · rfl
  · omega

end EndDirectPush

@[simp] theorem parked_eq_none_iff {s : PendingPaddingPush} {q : Bool} :
    s.parked q = none ↔ s.side q = none := by
  simp [parked]

theorem hasPending_eq_false_iff {s : PendingPaddingPush} :
    s.hasPending = false ↔ ∀ q, s.parked q = none := by
  simp [hasPending, side, and_comm]

/-- The retry's work list is the parked edit of each side. -/
theorem pendingPaddingEdits_eq (s : PendingPaddingPush) :
    pendingPaddingEdits s = (s.parked true, s.parked false) := rfl

/-! ### BeginPaddingEdit -/

section Begin

variable (s : PendingPaddingPush) (p q : Bool) (v : Int)

@[simp] theorem snd_beginPaddingEdit : (beginPaddingEdit s p v).2 = s.nextSeq + 1 := rfl

@[simp] theorem newest_beginPaddingEdit :
    (beginPaddingEdit s p v).1.newest q =
      if p = q then some ⟨v, s.nextSeq + 1⟩ else s.newest q := by
  cases p <;> cases q <;> rfl

@[simp] theorem parked_beginPaddingEdit : (beginPaddingEdit s p v).1.parked q = s.parked q := by
  cases p <;> cases q <;> rfl

@[simp] theorem nextSeq_beginPaddingEdit :
    (beginPaddingEdit s p v).1.nextSeq = s.nextSeq + 1 := by
  cases p <;> rfl

@[simp] theorem retries_beginPaddingEdit : (beginPaddingEdit s p v).1.retries = s.retries := by
  cases p <;> rfl

@[simp] theorem inFlightEdits_beginPaddingEdit :
    (beginPaddingEdit s p v).1.inFlightEdits = s.inFlightEdits + 1 := by
  cases p <;> rfl

end Begin

/-! ### ParkNewestPaddingEdit -/

section Park

variable (s : PendingPaddingPush) (p q : Bool)

@[simp] theorem newest_parkNewestPaddingEdit :
    (parkNewestPaddingEdit s p).newest q = s.newest q := by
  unfold parkNewestPaddingEdit
  split
  · rfl
  · simp only [newest_setSideSeq, newest_setSide]
    split <;> rfl

/-- Parking a side leaves its newest edit parked, and the other side alone. -/
theorem parked_parkNewestPaddingEdit {n : PaddingEdit} (hn : s.newest p = some n) :
    (parkNewestPaddingEdit s p).parked q = if p = q then some n else s.parked q := by
  unfold parkNewestPaddingEdit
  simp only [hn, parked, side_setSideSeq, side_setSide, sideSeq_setSideSeq, sideSeq_setSide]
  by_cases hpq : p = q
  · simp [hpq]
  · simp only [if_neg hpq]
    split <;> rfl

@[simp] theorem nextSeq_parkNewestPaddingEdit :
    (parkNewestPaddingEdit s p).nextSeq = s.nextSeq := by
  unfold parkNewestPaddingEdit
  split
  · rfl
  · simp only [nextSeq_setSideSeq, nextSeq_setSide]
    split <;> rfl

@[simp] theorem inFlightEdits_parkNewestPaddingEdit :
    (parkNewestPaddingEdit s p).inFlightEdits = s.inFlightEdits := by
  unfold parkNewestPaddingEdit
  split
  · rfl
  · simp only [inFlightEdits_setSideSeq, inFlightEdits_setSide]
    split <;> rfl

/-- The source's test for a fresh chance, in terms of the parked edit. -/
theorem not_already_parked_iff (m : Nat) :
    ((s.side p).isNone || s.sideSeq p != m) = true ↔ (s.parked p).map (·.seq) ≠ some m := by
  simp only [parked, Option.map_map]
  cases s.side p <;> simp

/-- The retry count restarts unless this very edit was parked already. -/
theorem retries_parkNewestPaddingEdit {n : PaddingEdit} (hn : s.newest p = some n) :
    (parkNewestPaddingEdit s p).retries =
      if (s.parked p).map (·.seq) = some n.seq then s.retries else 0 := by
  unfold parkNewestPaddingEdit
  simp only [hn, retries_setSideSeq, retries_setSide]
  by_cases h : (s.parked p).map (·.seq) = some n.seq
  · rw [if_pos h, if_neg (by rw [not_already_parked_iff]; exact not_not_intro h)]
  · rw [if_neg h, if_pos ((not_already_parked_iff s p n.seq).mpr h)]

end Park

/-! ### edits the bookkeeping knows about -/

/-- `e` is an edit of side `q` no newer than the newest one, and the newest
one itself when it carries its number.  Every edit parked, in flight or just
reported is known in this sense. -/
def Known (s : PendingPaddingPush) (q : Bool) (e : PaddingEdit) : Prop :=
  ∃ n, s.newest q = some n ∧ e.seq ≤ n.seq ∧ (e.seq = n.seq → e = n)

theorem Known.congr {s s' : PendingPaddingPush} {q : Bool} {e : PaddingEdit}
    (h : Known s q e) (hn : s'.newest q = s.newest q) : Known s' q e := by
  obtain ⟨n, hs, hle⟩ := h
  exact ⟨n, hn.trans hs, hle⟩

theorem Known.seq_eq_iff {s : PendingPaddingPush} {q : Bool} {e n : PaddingEdit}
    (h : Known s q e) (hn : s.newest q = some n) : e.seq = n.seq ↔ e = n := by
  obtain ⟨n', hn', -, heq⟩ := h
  obtain rfl : n' = n := Option.some.inj (hn'.symm.trans hn)
  exact ⟨heq, fun h => h ▸ rfl⟩

theorem Known.seq_le {s : PendingPaddingPush} {q : Bool} {e n : PaddingEdit}
    (h : Known s q e) (hn : s.newest q = some n) : e.seq ≤ n.seq := by
  obtain ⟨n', hn', hle, -⟩ := h
  obtain rfl : n' = n := Option.some.inj (hn'.symm.trans hn)
  exact hle

theorem known_newest {s : PendingPaddingPush} {q : Bool} {n : PaddingEdit}
    (hn : s.newest q = some n) : Known s q n := ⟨n, hn, Nat.le_refl _, fun _ => rfl⟩

theorem setNewest_of_newest {s : PendingPaddingPush} {q : Bool} {n : PaddingEdit}
    (hn : s.newest q = some n) : s.setNewest q n = s := by
  cases q <;> simp [setNewest, newest] at hn ⊢ <;> rw [← hn]

/-- Parked edits that are known are no newer than the newest edit. -/
theorem sideSeq_le {s : PendingPaddingPush} {q : Bool} {n : PaddingEdit}
    (hp : ∀ e, s.parked q = some e → Known s q e) (hn : s.newest q = some n)
    (hs : (s.side q).isSome) : s.sideSeq q ≤ n.seq := by
  obtain ⟨v, hv⟩ := Option.isSome_iff_exists.mp hs
  exact (hp ⟨v, s.sideSeq q⟩ (by simp [parked, hv])).seq_le hn

/-! ### ApplyDirectPaddingPushResult -/

section Direct

variable {s : PendingPaddingPush} {p : Bool} {e n : PaddingEdit} (q ok : Bool)

/-- For a known edit the source's update of `newest` changes nothing. -/
theorem applyDirect_eq (he : Known s p e) (hn : s.newest p = some n) :
    applyDirectPaddingPushResult s p e.value e.seq ok =
      if ok && e.seq == n.seq then
        if (s.side p).isSome && decide (s.sideSeq p ≤ e.seq) then s.endDirectPush.setSide p none
        else s.endDirectPush
      else parkNewestPaddingEdit s.endDirectPush p := by
  have hlt : ¬ n.seq < e.seq := Nat.not_lt.mpr (he.seq_le hn)
  have hset : s.endDirectPush.setNewest p n = s.endDirectPush :=
    setNewest_of_newest (by simpa using hn)
  simp only [applyDirectPaddingPushResult, newest_endDirectPush, hn, if_neg hlt, hset,
    side_endDirectPush, sideSeq_endDirectPush]

theorem newest_applyDirect (he : Known s p e) :
    (applyDirectPaddingPushResult s p e.value e.seq ok).newest q = s.newest q := by
  obtain ⟨n, hn, -⟩ := id he
  rw [applyDirect_eq ok he hn]
  split
  · split <;> simp
  · simp

theorem nextSeq_applyDirect (he : Known s p e) :
    (applyDirectPaddingPushResult s p e.value e.seq ok).nextSeq = s.nextSeq := by
  obtain ⟨n, hn, -⟩ := id he
  rw [applyDirect_eq ok he hn]
  split
  · split <;> simp
  · simp

theorem inFlightEdits_applyDirect (he : Known s p e) :
    (applyDirectPaddingPushResult s p e.value e.seq ok).inFlightEdits = s.inFlightEdits - 1 := by
  obtain ⟨n, hn, -⟩ := id he
  rw [applyDirect_eq ok he hn]
  split
  · split <;> simp
  · simp

/-- Only the newest edit's own success clears its side; any other result
leaves the newest edit parked. -/
theorem parked_applyDirect (he : Known s p e) (hn : s.newest p = some n)
    (hp : ∀ e, s.parked p = some e → Known s p e) :
    (applyDirectPaddingPushResult s p e.value e.seq ok).parked q =
      if p = q then (if ok ∧ e = n then none else some n) else s.parked q := by
  have hn' : s.endDirectPush.newest p = some n := by simpa using hn
  rw [applyDirect_eq ok he hn]
  by_cases hok : ok = true ∧ e = n
  · obtain ⟨rfl, rfl⟩ := hok
    by_cases hside : (s.side p).isSome
    · have hle : s.sideSeq p ≤ e.seq := sideSeq_le hp hn hside
      by_cases hpq : p = q
      · subst hpq; simp [hside, hle]
      · simp [hside, hle, hpq, parked]
    · by_cases hpq : p = q
      · subst hpq; simp [Option.not_isSome_iff_eq_none.mp hside]
      · simp [hside, hpq]
  · have hcond : ¬ (ok && e.seq == n.seq) = true := by
      simpa [he.seq_eq_iff hn] using hok
    rw [if_neg hcond, parked_parkNewestPaddingEdit _ _ _ hn', if_neg hok,
      parked_endDirectPush]

/-- The retry count restarts when the result parks an edit that was not
parked, and is kept otherwise. -/
theorem retries_applyDirect (he : Known s p e) (hn : s.newest p = some n) :
    (applyDirectPaddingPushResult s p e.value e.seq ok).retries =
      if ok = true ∧ e = n ∨ (s.parked p).map (·.seq) = some n.seq then s.retries else 0 := by
  have hn' : s.endDirectPush.newest p = some n := by simpa using hn
  rw [applyDirect_eq ok he hn]
  by_cases hok : ok = true ∧ e = n
  · obtain ⟨rfl, rfl⟩ := hok
    simp only [beq_self_eq_true, Bool.and_self, if_true, true_and, true_or]
    split <;> simp
  · have hcond : ¬ (ok && e.seq == n.seq) = true := by
      simpa [he.seq_eq_iff hn] using hok
    rw [if_neg hcond, retries_parkNewestPaddingEdit _ _ hn', parked_endDirectPush,
      retries_endDirectPush]
    simp only [hok, false_or]

end Direct

/-! ### ApplyPaddingRetryResult -/

/-- The value a retry sent for one side. -/
def sentOf (sentPre sentPost : Option PaddingEdit) (q : Bool) : Option PaddingEdit :=
  if q then sentPre else sentPost

section Settle

variable {s : PendingPaddingPush} {p : Bool} {e n : PaddingEdit}
  (s' : PendingPaddingPush) (sent : Option PaddingEdit) (p' q ok : Bool)

@[simp] theorem settlePaddingRetry_none : settlePaddingRetry s' p' none ok = s' := rfl

@[simp] theorem newest_settlePaddingRetry :
    (settlePaddingRetry s' p' sent ok).newest q = s'.newest q := by
  cases sent with
  | none => rfl
  | some e =>
      simp only [settlePaddingRetry]
      (repeat' split) <;> simp

@[simp] theorem nextSeq_settlePaddingRetry :
    (settlePaddingRetry s' p' sent ok).nextSeq = s'.nextSeq := by
  cases sent with
  | none => rfl
  | some e =>
      simp only [settlePaddingRetry]
      (repeat' split) <;> simp

@[simp] theorem inFlightEdits_settlePaddingRetry :
    (settlePaddingRetry s' p' sent ok).inFlightEdits = s'.inFlightEdits := by
  cases sent with
  | none => rfl
  | some e =>
      simp only [settlePaddingRetry]
      (repeat' split) <;> simp

/-- The source compares the parked number with the one sent; for known edits
that compares the edits. -/
theorem parked_eq_some_iff (hp : ∀ e, s.parked p = some e → Known s p e)
    (hn : s.newest p = some n) :
    ((s.side p).isSome && s.sideSeq p == n.seq) = true ↔ s.parked p = some n := by
  cases hside : s.side p with
  | none => simp [parked, hside]
  | some v =>
      have hparked : s.parked p = some ⟨v, s.sideSeq p⟩ := by simp [parked, hside]
      have hiff := (hp _ hparked).seq_eq_iff hn
      rw [hparked, Option.some.injEq, ← hiff]
      simp

/-- For known edits the source's `sentIsNewest` says what its name says. -/
theorem settlePaddingRetry_some (he : Known s p e) (hn : s.newest p = some n)
    (hp : ∀ e, s.parked p = some e → Known s p e) :
    settlePaddingRetry s p (some e) ok =
      if e = n then
        if ok = true ∧ s.parked p = some n then s.setSide p none else s
      else parkNewestPaddingEdit s p := by
  have hseq : (n.seq == e.seq) = decide (e = n) := by
    rw [Bool.beq_eq_decide_eq, decide_eq_decide, eq_comm, he.seq_eq_iff hn]
  simp only [settlePaddingRetry, hn, hseq]
  by_cases hen : e = n
  · subst hen
    cases ok with
    | false => simp
    | true => simp only [decide_true, Bool.and_self, if_true, parked_eq_some_iff hp hn, true_and]
  · simp [hen]

/-- The newest edit's own retry clears its side on success and leaves it on
failure; the retry of an older edit parks the newest one either way. -/
theorem parked_settlePaddingRetry (he : Known s p e) (hn : s.newest p = some n)
    (hp : ∀ e, s.parked p = some e → Known s p e) :
    (settlePaddingRetry s p (some e) ok).parked q =
      if p = q then
        if e = n then (if ok = true ∧ s.parked p = some n then none else s.parked p) else some n
      else s.parked q := by
  rw [settlePaddingRetry_some ok he hn hp]
  by_cases hen : e = n
  · rw [if_pos hen, if_pos hen]
    split
    · by_cases hpq : p = q
      · subst hpq; simp
      · simp [hpq, parked]
    · by_cases hpq : p = q
      · subst hpq; simp
      · simp [hpq]
  · rw [if_neg hen, if_neg hen, parked_parkNewestPaddingEdit _ _ _ hn]

theorem retries_settlePaddingRetry (he : Known s p e) (hn : s.newest p = some n)
    (hp : ∀ e, s.parked p = some e → Known s p e) :
    (settlePaddingRetry s p (some e) ok).retries =
      if e = n ∨ (s.parked p).map (·.seq) = some n.seq then s.retries else 0 := by
  rw [settlePaddingRetry_some ok he hn hp]
  by_cases hen : e = n
  · simp only [hen, if_true, true_or]
    split <;> simp
  · rw [if_neg hen, retries_parkNewestPaddingEdit _ _ hn]
    simp only [hen, false_or]

end Settle

/-- What a retry that sent `sent` leaves parked on a side, given what was
parked there and the side's newest edit. -/
def settledEdit (sent parked newest : Option PaddingEdit) (ok : Bool) : Option PaddingEdit :=
  match sent with
  | none => parked
  | some e =>
      if some e = newest then (if ok = true ∧ parked = newest then none else parked) else newest

section SettleBoth

variable {s : PendingPaddingPush} {sentPre sentPost : Option PaddingEdit} (q ok : Bool)

@[simp] theorem newest_settlePaddingRetries :
    (settlePaddingRetries s sentPre sentPost ok).newest q = s.newest q := by
  simp [settlePaddingRetries]

@[simp] theorem nextSeq_settlePaddingRetries :
    (settlePaddingRetries s sentPre sentPost ok).nextSeq = s.nextSeq := by
  simp [settlePaddingRetries]

@[simp] theorem inFlightEdits_settlePaddingRetries :
    (settlePaddingRetries s sentPre sentPost ok).inFlightEdits = s.inFlightEdits := by
  simp [settlePaddingRetries]

theorem parked_settleOne (p : Bool) (sent : Option PaddingEdit)
    (hs : ∀ e, sent = some e → Known s p e) (hp : ∀ e, s.parked p = some e → Known s p e) :
    (settlePaddingRetry s p sent ok).parked q =
      if p = q then settledEdit sent (s.parked p) (s.newest p) ok else s.parked q := by
  cases sent with
  | none =>
      by_cases hpq : p = q
      · subst hpq; simp [settledEdit]
      · simp [hpq]
  | some e =>
      obtain ⟨n, hn, -⟩ := hs e rfl
      rw [parked_settlePaddingRetry q ok (hs e rfl) hn hp]
      simp [settledEdit, hn]

/-- Each side of a retry is settled on its own. -/
theorem parked_settlePaddingRetries
    (hs : ∀ q e, sentOf sentPre sentPost q = some e → Known s q e)
    (hp : ∀ q e, s.parked q = some e → Known s q e) :
    (settlePaddingRetries s sentPre sentPost ok).parked q =
      settledEdit (sentOf sentPre sentPost q) (s.parked q) (s.newest q) ok := by
  have hpre := parked_settleOne (s := s) (q := q) ok true sentPre (hs true) (hp true)
  have hfalse := parked_settleOne (s := s) (q := false) ok true sentPre (hs true) (hp true)
  have hpost := parked_settleOne (s := settlePaddingRetry s true sentPre ok) (q := q) ok false
    sentPost (fun e h => (hs false e h).congr (by simp))
    (fun e h => (hp false e (by simpa [hfalse] using h)).congr (by simp))
  rw [settlePaddingRetries, hpost]
  cases q with
  | false => simp [sentOf, hfalse]
  | true => simp [sentOf, hpre]

/-- The value a retry sent for a side is that side's newest edit. -/
def SentIsNewest (s : PendingPaddingPush) (q : Bool) (sent : Option PaddingEdit) : Prop :=
  sent = none ∨ sent = s.newest q

instance (s : PendingPaddingPush) (q : Bool) (sent : Option PaddingEdit) :
    Decidable (SentIsNewest s q sent) := inferInstanceAs (Decidable (_ ∨ _))

/-- Settling the side of a value parked at that very moment restarts the
retry count exactly when a newer edit takes its place. -/
theorem retries_settleOne (p : Bool) (sent : Option PaddingEdit)
    (hs : ∀ e, sent = some e → Known s p e) (hp : s.parked p = sent) :
    (settlePaddingRetry s p sent ok).retries = if SentIsNewest s p sent then s.retries else 0 := by
  cases sent with
  | none => simp [SentIsNewest]
  | some e =>
      have he := hs e rfl
      obtain ⟨n, hn, -⟩ := id he
      have hp' : ∀ x, s.parked p = some x → Known s p x := fun x hx => by
        rw [hp] at hx; exact hs x hx
      rw [retries_settlePaddingRetry ok he hn hp', hp]
      simp [SentIsNewest, hn, he.seq_eq_iff hn]

/-- A retry whose values are the parked ones restarts the retry count exactly
when one of them is no longer its side's newest edit. -/
theorem retries_settlePaddingRetries
    (hs : ∀ q e, sentOf sentPre sentPost q = some e → Known s q e)
    (hp : ∀ q, s.parked q = sentOf sentPre sentPost q) :
    (settlePaddingRetries s sentPre sentPost ok).retries =
      if SentIsNewest s true sentPre ∧ SentIsNewest s false sentPost then s.retries else 0 := by
  have hkn : ∀ e, s.parked true = some e → Known s true e := fun e h =>
    hs true e (by rw [← hp true]; exact h)
  have hfalse : (settlePaddingRetry s true sentPre ok).parked false = sentPost := by
    rw [parked_settleOne false ok true sentPre (hs true) hkn, if_neg (by decide), hp false]
    rfl
  rw [settlePaddingRetries, retries_settleOne ok false sentPost
    (fun e h => (hs false e h).congr (by simp)) hfalse, retries_settleOne ok true sentPre (hs true)
    (hp true)]
  simp only [SentIsNewest, newest_settlePaddingRetry]
  by_cases h1 : sentPre = none ∨ sentPre = s.newest true <;> simp [h1]

end SettleBoth

section Retry

variable (s : PendingPaddingPush) (sentPre sentPost : Option PaddingEdit) (ok : Bool)
  (maxRetries : Nat) (q : Bool)

/-- Whether this result makes the add-on give up. -/
theorem applyPaddingRetryResult_snd :
    (applyPaddingRetryResult s sentPre sentPost ok maxRetries).2 =
      if ok then .sent
      else if maxRetries ≤ (settlePaddingRetries s sentPre sentPost false).retries + 1 then .gaveUp
      else .retryLater := by
  simp only [applyPaddingRetryResult]
  (repeat' split) <;> rfl

@[simp] theorem newest_applyPaddingRetryResult :
    (applyPaddingRetryResult s sentPre sentPost ok maxRetries).1.newest q = s.newest q := by
  simp only [applyPaddingRetryResult]
  (repeat' split) <;> exact newest_settlePaddingRetries q _

@[simp] theorem nextSeq_applyPaddingRetryResult :
    (applyPaddingRetryResult s sentPre sentPost ok maxRetries).1.nextSeq = s.nextSeq := by
  simp only [applyPaddingRetryResult]
  (repeat' split) <;> exact nextSeq_settlePaddingRetries _

@[simp] theorem inFlightEdits_applyPaddingRetryResult :
    (applyPaddingRetryResult s sentPre sentPost ok maxRetries).1.inFlightEdits =
      s.inFlightEdits := by
  simp only [applyPaddingRetryResult]
  (repeat' split) <;> exact inFlightEdits_settlePaddingRetries _

/-- Giving up drops both sides; otherwise the settled edits stay parked. -/
theorem parked_applyPaddingRetryResult :
    (applyPaddingRetryResult s sentPre sentPost ok maxRetries).1.parked q =
      if (applyPaddingRetryResult s sentPre sentPost ok maxRetries).2 = .gaveUp then none
      else (settlePaddingRetries s sentPre sentPost ok).parked q := by
  cases ok with
  | true => rfl
  | false =>
      simp only [applyPaddingRetryResult, Bool.false_eq_true, if_false]
      split
      · cases q <;> rfl
      · rfl

/-- The retry count after a result: cleared by a success and by giving up,
one more otherwise. -/
theorem retries_applyPaddingRetryResult :
    (applyPaddingRetryResult s sentPre sentPost ok maxRetries).1.retries =
      if (applyPaddingRetryResult s sentPre sentPost ok maxRetries).2 = .retryLater then
        (settlePaddingRetries s sentPre sentPost false).retries + 1
      else 0 := by
  simp only [applyPaddingRetryResult]
  (repeat' split) <;> first | rfl | simp_all

end Retry

end DispatcharrPvr
