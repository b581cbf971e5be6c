import DispatcharrPvr.Lib.Runs
import DispatcharrPvr.PaddingPush
import DispatcharrPvr.Request
import Mathlib.Data.List.Perm.Basic

/-!
# PaddingPush.Landing

The padding bookkeeping together with the server it pushes to, as a step
system.  An edit starts a direct push at once; the background thread starts a
retry of whatever is parked.  Requests reach the server in any order, each
ends ok, failed but landed, or failed and not landed, and the results are
applied in the order the requests reached the server.

`Inv` is the invariant that carries convergence: unless a give-up dropped it,
the newest edit of a side is parked, or its own direct push is still in
flight, or the writes already reported left it on the server.  Its witness
`base` is the server's value as of the last *reported* write, which
differs from the server's own only by writes still waiting to be reported.
-/

namespace DispatcharrPvr

open Runs PendingPaddingPush

/-! ## requests and the world -/

/-- A write sent to the server: the direct push of one edit, or a background
retry with the work list it took. -/
inductive PaddingRequest
  | direct (isPre : Bool) (edit : PaddingEdit)
  | retry (sentPre sentPost : Option PaddingEdit)
deriving DecidableEq, Repr

/-- What a request writes for one side. -/
def PaddingRequest.sent : PaddingRequest → Bool → Option PaddingEdit
  | .direct isPre edit, q => if isPre = q then some edit else none
  | .retry sentPre sentPost, q => sentOf sentPre sentPost q

def PaddingRequest.isDirect : PaddingRequest → Bool
  | .direct _ _ => true
  | .retry _ _ => false

/-- The add-on's bookkeeping and the server.  `gaveUp` and `dropped` record
what happened since the newest edit of a side: that a retry's result was
"gave up", and that this dropped the side's own parked value. -/
structure PaddingWorld where
  state : PendingPaddingPush := {}
  server : Bool → Int
  /-- Sent, not at the server yet. -/
  sent : List PaddingRequest := []
  /-- At the server, result not applied yet; oldest first. -/
  landed : List (PaddingRequest × RequestOutcome) := []
  gaveUp : Bool → Bool := fun _ => false
  dropped : Bool → Bool := fun _ => false

inductive PaddingEvent
  /-- The user edits one side. -/
  | edit (isPre : Bool) (value : Int)
  /-- The background thread takes its work list. -/
  | retry
  /-- The `i`-th request on its way reaches the server. -/
  | land (i : Nat) (outcome : RequestOutcome)
  /-- The oldest result is applied. -/
  | report
deriving DecidableEq, Repr

/-- The server's values after a request reached it. -/
def serverAfter (server : Bool → Int) (r : PaddingRequest) (o : RequestOutcome) : Bool → Int :=
  fun q =>
    match r.sent q with
    | some e => if o.landed then e.value else server q
    | none => server q

theorem serverAfter_of_none {server : Bool → Int} {r : PaddingRequest} {o : RequestOutcome}
    {q : Bool} (h : r.sent q = none) : serverAfter server r o q = server q := by
  simp [serverAfter, h]

theorem serverAfter_of_some {server : Bool → Int} {r : PaddingRequest} {o : RequestOutcome}
    {q : Bool} {e : PaddingEdit} (h : r.sent q = some e) :
    serverAfter server r o q = if o.landed then e.value else server q := by
  simp [serverAfter, h]

theorem foldl_serverAfter_of_none {landed : List (PaddingRequest × RequestOutcome)} {q : Bool}
    (h : ∀ ro ∈ landed, ro.1.sent q = none) (base : Bool → Int) :
    landed.foldl (fun s ro => serverAfter s ro.1 ro.2) base q = base q := by
  induction landed generalizing base with
  | nil => rfl
  | cons ro landed ih =>
      rw [List.foldl_cons, ih fun x hx => h x (List.mem_cons_of_mem _ hx)]
      exact serverAfter_of_none (h ro (List.mem_cons_self ..))

namespace PaddingWorld

def init (server : Bool → Int) : PaddingWorld := { server }

/-- Every request whose result has not been applied. -/
def inFlight (w : PaddingWorld) : List PaddingRequest := w.sent ++ w.landed.map (·.1)

/-- `ApplyDirectPaddingPushResult` or `ApplyPaddingRetryResult`, as the
request asks for. -/
def applyResult (maxRetries : Nat) (w : PaddingWorld) : PaddingRequest → RequestOutcome → PaddingWorld
  | .direct isPre e, o =>
      { w with state := applyDirectPaddingPushResult w.state isPre e.value e.seq o.isOk }
  | .retry sentPre sentPost, o =>
      let (state, outcome) := applyPaddingRetryResult w.state sentPre sentPost o.isOk maxRetries
      if outcome = .gaveUp then
        { w with
          state
          gaveUp := fun _ => true
          dropped := fun q =>
            w.dropped q ||
              ((settlePaddingRetries w.state sentPre sentPost o.isOk).parked q).isSome }
      else { w with state }

def step (maxRetries : Nat) (w : PaddingWorld) : PaddingEvent → Option PaddingWorld
  | .edit isPre value =>
      let (state, seq) := beginPaddingEdit w.state isPre value
      some
        { w with
          state
          sent := w.sent ++ [.direct isPre ⟨value, seq⟩]
          gaveUp := fun q => if isPre = q then false else w.gaveUp q
          dropped := fun q => if isPre = q then false else w.dropped q }
  | .retry =>
      match pendingPaddingEdits w.state with
      | (none, none) => none -- nothing is sent and no result is applied
      | (pre, post) => some { w with sent := w.sent ++ [.retry pre post] }
  | .land i o =>
      match w.sent[i]? with
      | none => none
      | some r =>
          some
            { w with
              sent := w.sent.eraseIdx i
              landed := w.landed ++ [(r, o)]
              server := serverAfter w.server r o }
  | .report =>
      match w.landed with
      | [] => none
      | (r, o) :: landed => some (applyResult maxRetries { w with landed } r o)

/-- A result changes the bookkeeping only: neither the server nor what is in
flight. -/
theorem applyResult_frame (m : Nat) (w : PaddingWorld) (r : PaddingRequest) (o : RequestOutcome) :
    (applyResult m w r o).sent = w.sent ∧ (applyResult m w r o).landed = w.landed ∧
      (applyResult m w r o).server = w.server := by
  cases r with
  | direct p e => exact ⟨rfl, rfl, rfl⟩
  | retry pre post =>
      simp only [applyResult]
      split <;> exact ⟨rfl, rfl, rfl⟩

/-! ### what each step does -/

section StepCases

variable {m : Nat} {w w' : PaddingWorld}

theorem step_edit_eq {isPre : Bool} {value : Int} (h : step m w (.edit isPre value) = some w') :
    w' =
      { w with
        state := (beginPaddingEdit w.state isPre value).1
        sent := w.sent ++ [.direct isPre ⟨value, w.state.nextSeq + 1⟩]
        gaveUp := fun q => if isPre = q then false else w.gaveUp q
        dropped := fun q => if isPre = q then false else w.dropped q } :=
  (Option.some.inj h).symm

theorem step_retry_eq (h : step m w .retry = some w') :
    w' = { w with sent := w.sent ++ [.retry (w.state.parked true) (w.state.parked false)] } := by
  rw [step, pendingPaddingEdits_eq] at h
  split at h
  · contradiction
  · next hmatch =>
      obtain ⟨rfl, rfl⟩ := Prod.mk.inj hmatch
      exact (Option.some.inj h).symm

theorem step_land_eq {i : Nat} {o : RequestOutcome} (h : step m w (.land i o) = some w') :
    ∃ r, w.sent[i]? = some r ∧
      w' =
        { w with
          sent := w.sent.eraseIdx i
          landed := w.landed ++ [(r, o)]
          server := serverAfter w.server r o } := by
  simp only [step] at h
  split at h
  · contradiction
  · next r hr => exact ⟨r, hr, (Option.some.inj h).symm⟩

theorem step_report_eq (h : step m w .report = some w') :
    ∃ r o landed, w.landed = (r, o) :: landed ∧ w' = applyResult m { w with landed } r o := by
  simp only [step] at h
  split at h
  · contradiction
  · next r o landed hl => exact ⟨r, o, landed, hl, (Option.some.inj h).symm⟩

end StepCases

/-! ## the invariant -/

/-- The newest edit of a side, unless it was dropped, is parked, or its direct
push is in flight, or `v` holds its value. -/
def Covered (w : PaddingWorld) (v : Bool → Int) : Prop :=
  ∀ q n, w.state.newest q = some n → w.dropped q = false →
    w.state.parked q = some n ∨ PaddingRequest.direct q n ∈ w.inFlight ∨ v q = n.value

/-- See the header; `base` is the server as of the last reported write. -/
structure Inv (w : PaddingWorld) (base : Bool → Int) : Prop where
  newest_le : ∀ q n, w.state.newest q = some n → n.seq ≤ w.state.nextSeq
  known_parked : ∀ q e, w.state.parked q = some e → Known w.state q e
  known_flight : ∀ r ∈ w.inFlight, ∀ q e, r.sent q = some e → Known w.state q e
  flight_count : w.state.inFlightEdits = w.inFlight.countP (·.isDirect)
  server_eq : w.server = w.landed.foldl (fun s ro => serverAfter s ro.1 ro.2) base
  parked_newest : ∀ q e, w.state.parked q = some e →
    w.state.newest q = some e ∨
      ∃ n, w.state.newest q = some n ∧ PaddingRequest.direct q n ∈ w.inFlight
  converged : Covered w base

theorem inv_init (server : Bool → Int) : Inv (init server) server where
  newest_le := by intro q n h; cases q <;> simp [init, newest] at h
  known_parked := by intro q e h; cases q <;> simp [init, parked, side] at h
  known_flight := by intro r h; simp [init, inFlight] at h
  flight_count := rfl
  server_eq := rfl
  parked_newest := by intro q e h; cases q <;> simp [init, parked, side] at h
  converged := by intro q n h; cases q <;> simp [init, newest] at h

/-! ### how each step keeps the newest edit covered -/

section CoveredSteps

variable {m : Nat} {w w' : PaddingWorld} {v v' : Bool → Int}

theorem covered_edit (h : Covered w v) {isPre : Bool} {value : Int}
    (hw : step m w (.edit isPre value) = some w') : Covered w' v := by
  obtain rfl := step_edit_eq hw
  intro q n hn hdrop
  simp only [newest_beginPaddingEdit, parked_beginPaddingEdit] at hn ⊢
  by_cases hq : isPre = q
  · simp only [if_pos hq, Option.some.injEq] at hn
    subst hn
    refine .inr (.inl ?_)
    simp [inFlight, hq]
  · simp only [if_neg hq] at hn hdrop
    refine (h q n hn hdrop).imp_right (.imp_left fun hd => ?_)
    simp only [inFlight, List.mem_append] at hd ⊢
    exact hd.imp_left .inl

theorem covered_retry (h : Covered w v) (hw : step m w .retry = some w') : Covered w' v := by
  obtain rfl := step_retry_eq hw
  intro q n hn hdrop
  refine (h q n hn hdrop).imp_right (.imp_left fun hd => ?_)
  simp only [inFlight, List.mem_append] at hd ⊢
  exact hd.imp_left .inl

/-- A landing request only moves from one list to the other. -/
theorem inFlight_land {i : Nat} {o : RequestOutcome} (hw : step m w (.land i o) = some w') :
    w'.inFlight.Perm w.inFlight := by
  obtain ⟨r, hr, rfl⟩ := step_land_eq hw
  obtain ⟨hi, rfl⟩ := List.getElem?_eq_some_iff.mp hr
  have hsent : (w.sent[i] :: w.sent.eraseIdx i).Perm w.sent := List.getElem_cons_eraseIdx_perm hi
  simp only [List.map_append, List.map_cons, List.map_nil, inFlight, ← List.append_assoc]
  exact List.perm_append_comm.trans (hsent.append_right _)

/-- A reported request is no longer in flight, the others are. -/
theorem inFlight_report {r : PaddingRequest} {o : RequestOutcome}
    {landed : List (PaddingRequest × RequestOutcome)} (hl : w.landed = (r, o) :: landed) :
    w.inFlight.Perm (r :: (applyResult m { w with landed } r o).inFlight) := by
  obtain ⟨hs, hla, -⟩ := applyResult_frame m { w with landed } r o
  simp only [inFlight, hl, hs, hla, List.map_cons]
  exact List.perm_middle

theorem covered_land (h : Covered w v) {i : Nat} {o : RequestOutcome}
    (hw : step m w (.land i o) = some w') : Covered w' v := by
  have hperm := inFlight_land hw
  obtain ⟨r, -, rfl⟩ := step_land_eq hw
  intro q n hn hdrop
  exact (h q n hn hdrop).imp_right (.imp_left hperm.mem_iff.mpr)

/-- What a finished retry leaves: the settled edit of each side, unless it
gave up, and then the sides it emptied are marked as dropped. -/
theorem applyResult_retry (w : PaddingWorld) (m : Nat) (pre post : Option PaddingEdit)
    (o : RequestOutcome) :
    let w' := applyResult m w (.retry pre post) o
    w'.state = (applyPaddingRetryResult w.state pre post o.isOk m).1 ∧
      ∀ q, w'.dropped q = false → w.dropped q = false ∧
        w'.state.parked q = (settlePaddingRetries w.state pre post o.isOk).parked q := by
  have hparked := fun q =>
    parked_applyPaddingRetryResult w.state pre post o.isOk m q
  simp only [applyResult]
  by_cases hg : (applyPaddingRetryResult w.state pre post o.isOk m).2 = .gaveUp
  · rw [if_pos hg]
    refine ⟨rfl, fun q hq => ?_⟩
    rw [Bool.or_eq_false_iff, Option.isSome_eq_false_iff, Option.isNone_iff_eq_none] at hq
    rw [hparked q, if_pos hg, hq.2]
    exact ⟨hq.1, rfl⟩
  · rw [if_neg hg]
    refine ⟨rfl, fun q hq => ⟨hq, ?_⟩⟩
    rw [hparked q, if_neg hg]

/-- A result settles its own side: `v'` has to keep what `v` covered, unless
an older edit was sent, and to hold the newest edit when its success came. -/
theorem covered_report {r : PaddingRequest} {o : RequestOutcome}
    {landed : List (PaddingRequest × RequestOutcome)}
    (hknown : ∀ q e, r.sent q = some e → Known w.state q e)
    (hp : ∀ q e, w.state.parked q = some e → Known w.state q e)
    (hl : w.landed = (r, o) :: landed) (h : Covered w v)
    (hsame : ∀ q n, r.sent q = none ∨ r.sent q = some n → v q = n.value → v' q = n.value)
    (hok : ∀ q n, w.state.newest q = some n → r.sent q = some n → o.isOk = true →
      v' q = n.value) :
    Covered (applyResult m { w with landed } r o) v' := by
  have hflight : ∀ q n, .direct q n ∈ w.inFlight → r ≠ .direct q n →
      .direct q n ∈ (applyResult m { w with landed } r o).inFlight := by
    intro q n hd hne
    exact List.mem_of_ne_of_mem hne.symm ((inFlight_report hl).mem_iff.mp hd)
  cases r with
  | direct p e =>
      have he := hknown p e (by simp [PaddingRequest.sent])
      obtain ⟨k, hk, -⟩ := id he
      intro q n hn hdrop
      have hn' : w.state.newest q = some n := by rwa [applyResult, newest_applyDirect q _ he] at hn
      simp only [applyResult, parked_applyDirect q o.isOk he hk (hp p)]
      by_cases hpq : p = q
      · subst hpq
        obtain rfl : k = n := Option.some.inj (hk.symm.trans hn')
        rw [if_pos rfl]
        by_cases hoe : o.isOk = true ∧ e = k
        · obtain ⟨ho, rfl⟩ := hoe
          exact .inr (.inr (hok p e hk (by simp [PaddingRequest.sent]) ho))
        · exact .inl (if_neg hoe)
      · rw [if_neg hpq]
        have hne : PaddingRequest.direct p e ≠ .direct q n := fun heq =>
          hpq (PaddingRequest.direct.inj heq).1
        have hnone : (PaddingRequest.direct p e).sent q = none := if_neg hpq
        exact (h q n hn' hdrop).imp_right
          (.imp (fun hd => hflight q n hd hne) (hsame q n (.inl hnone)))
  | retry pre post =>
      obtain ⟨hst, hdrop'⟩ := applyResult_retry { w with landed } m pre post o
      have hsettled := fun q => parked_settlePaddingRetries q o.isOk hknown hp
      intro q n hn hdrop
      rw [hst, newest_applyPaddingRetryResult] at hn
      obtain ⟨hdropped, hpark⟩ := hdrop' q hdrop
      rw [hpark, hsettled q, hn]
      have hold := h q n hn hdropped
      have hdirect : .direct q n ∈ w.inFlight →
          .direct q n ∈ (applyResult m { w with landed } (.retry pre post) o).inFlight :=
        fun hd => hflight q n hd nofun
      cases hq : sentOf pre post q with
      | none =>
          simp only [settledEdit]
          exact hold.imp_right (.imp hdirect (hsame q n (.inl hq)))
      | some e =>
          by_cases hen : e = n
          · subst hen
            simp only [settledEdit, if_true]
            cases ho : o.isOk with
            | true => exact .inr (.inr (hok q e hn hq ho))
            | false =>
                simp only [Bool.false_eq_true, false_and, if_false]
                exact hold.imp_right (.imp hdirect (hsame q e (.inr hq)))
          · exact .inl (by simp [settledEdit, hen])

end CoveredSteps

/-! ### one step lemma per event -/

section Steps

variable {w : PaddingWorld} {base : Bool → Int}

/-- A new edit is newer than every edit known so far. -/
theorem known_beginPaddingEdit {q isPre : Bool} {e : PaddingEdit} {value : Int}
    (hle : ∀ q n, w.state.newest q = some n → n.seq ≤ w.state.nextSeq)
    (he : Known w.state q e) : Known (beginPaddingEdit w.state isPre value).1 q e := by
  obtain ⟨n, hn, hen, heq⟩ := he
  by_cases hq : isPre = q
  · have hseq := hle q n hn
    refine ⟨⟨value, w.state.nextSeq + 1⟩, by simp [hq], ?_, fun h => ?_⟩
    · show e.seq ≤ w.state.nextSeq + 1
      omega
    · have h' : e.seq = w.state.nextSeq + 1 := h
      omega
  · exact ⟨n, by simp [hq, hn], hen, heq⟩

theorem inv_edit (h : Inv w base) (isPre : Bool) (value : Int) {w' : PaddingWorld}
    (hw : step m w (.edit isPre value) = some w') : Inv w' base := by
  obtain rfl := step_edit_eq hw
  have hflight : ∀ r, r ∈ w.inFlight ∨ r = .direct isPre ⟨value, w.state.nextSeq + 1⟩ ↔
      r ∈ (w.sent ++ [PaddingRequest.direct isPre ⟨value, w.state.nextSeq + 1⟩]) ++
        w.landed.map (·.1) := by
    intro r
    simp only [inFlight, List.mem_append, List.mem_singleton]
    exact or_right_comm
  refine ⟨?_, ?_, ?_, ?_, h.server_eq, ?_, covered_edit h.converged hw⟩
  · intro q n hn
    by_cases hq : isPre = q
    · simp only [newest_beginPaddingEdit, if_pos hq, Option.some.injEq] at hn
      subst hn; simp
    · simp only [newest_beginPaddingEdit, if_neg hq] at hn
      have hle := h.newest_le q n hn
      simp only [nextSeq_beginPaddingEdit]; omega
  · intro q e he
    rw [parked_beginPaddingEdit] at he
    exact known_beginPaddingEdit h.newest_le (h.known_parked q e he)
  · intro r hr q e he
    rcases (hflight r).mpr hr with hr | rfl
    · exact known_beginPaddingEdit h.newest_le (h.known_flight r hr q e he)
    · by_cases hq : isPre = q
      · simp only [PaddingRequest.sent, if_pos hq, Option.some.injEq] at he
        subst he; exact known_newest (by simp [hq])
      · simp [PaddingRequest.sent, hq] at he
  · simp only [inFlightEdits_beginPaddingEdit, h.flight_count, inFlight, List.countP_append,
      List.countP_singleton, PaddingRequest.isDirect, if_true]
    omega
  · intro q e he
    rw [parked_beginPaddingEdit] at he
    by_cases hq : isPre = q
    · exact .inr ⟨⟨value, w.state.nextSeq + 1⟩, by simp [hq],
        (hflight _).mp (.inr (by rw [hq]))⟩
    · simp only [newest_beginPaddingEdit, if_neg hq]
      rcases h.parked_newest q e he with hn | ⟨n, hn, hd⟩
      · exact .inl hn
      · exact .inr ⟨n, hn, (hflight _).mp (.inl hd)⟩

theorem inv_retry (h : Inv w base) {w' : PaddingWorld} (hw : step m w .retry = some w') :
    Inv w' base := by
  obtain rfl := step_retry_eq hw
  have hmem : ∀ r ∈ w.inFlight, r ∈ (w.sent ++ [PaddingRequest.retry (w.state.parked true)
      (w.state.parked false)]) ++ w.landed.map (·.1) := by
    intro r hr
    simp only [inFlight, List.mem_append] at hr ⊢
    exact hr.imp_left .inl
  refine ⟨h.newest_le, h.known_parked, ?_, ?_, h.server_eq, ?_, covered_retry h.converged hw⟩
  · intro r hr q e he
    simp only [inFlight, List.mem_append, List.mem_singleton] at hr
    rcases hr with (hr | rfl) | hr
    · exact h.known_flight r (List.mem_append_left _ hr) q e he
    · exact h.known_parked q e (by cases q <;> simpa [PaddingRequest.sent, sentOf] using he)
    · exact h.known_flight r (List.mem_append_right _ hr) q e he
  · simp [h.flight_count, inFlight, List.countP_append, PaddingRequest.isDirect]
  · intro q e he
    rcases h.parked_newest q e he with hn | ⟨n, hn, hd⟩
    · exact .inl hn
    · exact .inr ⟨n, hn, hmem _ hd⟩

theorem inv_land (h : Inv w base) (i : Nat) (o : RequestOutcome) {w' : PaddingWorld}
    (hw : step m w (.land i o) = some w') : Inv w' base := by
  have hperm := inFlight_land hw
  have hconverged := covered_land h.converged hw
  obtain ⟨r, -, rfl⟩ := step_land_eq hw
  refine ⟨h.newest_le, h.known_parked, ?_, ?_, ?_, ?_, hconverged⟩
  · intro r hr q e he
    exact h.known_flight r (hperm.mem_iff.mp hr) q e he
  · rw [h.flight_count]; exact (hperm.countP_eq _).symm
  · simp [List.foldl_append, h.server_eq]
  · intro q e he
    rcases h.parked_newest q e he with hn | ⟨n, hn, hd⟩
    · exact .inl hn
    · exact .inr ⟨n, hn, hperm.mem_iff.mpr hd⟩

/-- With a request reported, the newest edits are covered by the server as of
that report. -/
theorem covered_serverAfter {r : PaddingRequest} {o : RequestOutcome}
    {landed : List (PaddingRequest × RequestOutcome)} (h : Inv w base)
    (hl : w.landed = (r, o) :: landed) :
    Covered (applyResult m { w with landed } r o) (serverAfter base r o) := by
  have hmem : r ∈ w.inFlight := by simp [inFlight, hl]
  refine covered_report (h.known_flight r hmem) h.known_parked hl h.converged ?_ ?_
  · intro q n hsent hb
    rcases hsent with hnone | hsome
    · rw [serverAfter_of_none hnone, hb]
    · rw [serverAfter_of_some hsome, hb, ite_self]
  · intro q n _ hsent hok
    rw [serverAfter_of_some hsent, if_pos (RequestOutcome.landed_of_isOk hok)]

/-- Applying a direct push's result: its own success settles the newest edit,
anything else parks it. -/
theorem inv_report_direct {p : Bool} {e : PaddingEdit} {o : RequestOutcome}
    {landed : List (PaddingRequest × RequestOutcome)} (h : Inv w base)
    (hl : w.landed = (.direct p e, o) :: landed) :
    Inv (applyResult m { w with landed } (.direct p e) o)
      (serverAfter base (.direct p e) o) := by
  have hperm : w.inFlight.Perm (.direct p e :: (w.sent ++ landed.map (·.1))) :=
    inFlight_report (m := m) hl
  have he : Known w.state p e :=
    h.known_flight _ (hperm.mem_iff.mpr (List.mem_cons_self ..)) p e (by simp [PaddingRequest.sent])
  obtain ⟨n, hn, -⟩ := id he
  have hnewest : ∀ q, (applyDirectPaddingPushResult w.state p e.value e.seq o.isOk).newest q =
      w.state.newest q := fun q => newest_applyDirect q _ he
  have hparked : ∀ q, (applyDirectPaddingPushResult w.state p e.value e.seq o.isOk).parked q =
      if p = q then (if o.isOk ∧ e = n then none else some n) else w.state.parked q :=
    fun q => parked_applyDirect q _ he hn (h.known_parked p)
  -- the push of another side, or of another edit, is still in flight
  have hother : ∀ q x, PaddingRequest.direct q x ∈ w.inFlight → p ≠ q →
      PaddingRequest.direct q x ∈ w.sent ++ landed.map (·.1) := by
    intro q x hx hpq
    rcases List.mem_cons.mp (hperm.mem_iff.mp hx) with heq | hmem
    · exact absurd (PaddingRequest.direct.inj heq).1.symm hpq
    · exact hmem
  refine ⟨?_, ?_, ?_, ?_, ?_, ?_, covered_serverAfter h hl⟩ <;> simp only [applyResult]
  · intro q k hk
    rw [hnewest] at hk
    rw [nextSeq_applyDirect _ he]
    exact h.newest_le q k hk
  · intro q x hx
    rw [hparked] at hx
    by_cases hpq : p = q
    · subst hpq
      rw [if_pos rfl] at hx
      split at hx
      · contradiction
      · obtain rfl := Option.some.inj hx
        exact (known_newest hn).congr (hnewest p)
    · rw [if_neg hpq] at hx
      exact (h.known_parked q x hx).congr (hnewest q)
  · intro r hr q x hx
    exact (h.known_flight r (hperm.mem_iff.mpr (List.mem_cons_of_mem _ hr)) q x hx).congr (hnewest q)
  · rw [inFlightEdits_applyDirect _ he, h.flight_count, hperm.countP_eq, List.countP_cons]
    simp [PaddingRequest.isDirect, inFlight]
  · rw [h.server_eq, hl]; rfl
  · intro q x hx
    rw [hparked] at hx
    rw [hnewest]
    by_cases hpq : p = q
    · subst hpq
      rw [if_pos rfl] at hx
      split at hx
      · contradiction
      · exact .inl (hn.trans hx)
    · rw [if_neg hpq] at hx
      rcases h.parked_newest q x hx with hq | ⟨k, hk, hd⟩
      · exact .inl hq
      · exact .inr ⟨k, hk, hother q k hd hpq⟩

/-- Applying a retry's result: the newest edit's own retry leaves the side as
it was or settled, the retry of an older edit parks the newest one. -/
theorem inv_report_retry {pre post : Option PaddingEdit} {o : RequestOutcome}
    {landed : List (PaddingRequest × RequestOutcome)} (h : Inv w base)
    (hl : w.landed = (.retry pre post, o) :: landed) :
    Inv (applyResult m { w with landed } (.retry pre post) o)
      (serverAfter base (.retry pre post) o) := by
  have hperm := inFlight_report (m := m) hl
  have hsent : ∀ q e, sentOf pre post q = some e → Known w.state q e := fun q e he =>
    h.known_flight _ (hperm.mem_iff.mpr (List.mem_cons_self ..)) q e he
  have hdirect : ∀ q x, PaddingRequest.direct q x ∈ w.inFlight →
      PaddingRequest.direct q x ∈ (applyResult m { w with landed } (.retry pre post) o).inFlight :=
    fun q x hx => (List.mem_cons.mp (hperm.mem_iff.mp hx)).resolve_left nofun
  have hconverged := covered_serverAfter (m := m) h hl
  have hst := (applyResult_retry { w with landed } m pre post o).1
  obtain ⟨-, hla, hsrv⟩ := applyResult_frame m { w with landed } (.retry pre post) o
  generalize applyResult m { w with landed } (.retry pre post) o = w'
    at hperm hdirect hconverged hst hla hsrv ⊢
  have hnewest : ∀ q, w'.state.newest q = w.state.newest q := fun q => by
    rw [hst]; exact newest_applyPaddingRetryResult ..
  -- the settled edit of a side is the parked one, the newest one or nothing
  have hsettled := fun q => parked_settlePaddingRetries q o.isOk hsent h.known_parked
  have hparked : ∀ q x, w'.state.parked q = some x →
      settledEdit (sentOf pre post q) (w.state.parked q) (w.state.newest q) o.isOk = some x := by
    intro q x hx
    rw [hst, parked_applyPaddingRetryResult] at hx
    split at hx
    · contradiction
    · rwa [← hsettled q]
  have hcases : ∀ q x, w'.state.parked q = some x →
      w.state.parked q = some x ∨ w.state.newest q = some x := by
    intro q x hx
    have hx' := hparked q x hx
    simp only [settledEdit] at hx'
    split at hx'
    · exact .inl hx'
    · split at hx'
      · split at hx'
        · contradiction
        · exact .inl hx'
      · exact .inr hx'
  refine ⟨?_, ?_, ?_, ?_, ?_, ?_, hconverged⟩
  · intro q n hn
    rw [hnewest] at hn
    rw [hst, nextSeq_applyPaddingRetryResult]
    exact h.newest_le q n hn
  · intro q x hx
    rcases hcases q x hx with hp | hn
    · exact (h.known_parked q x hp).congr (hnewest q)
    · exact known_newest ((hnewest q).trans hn)
  · intro r hr q x hx
    exact (h.known_flight r (hperm.mem_iff.mpr (List.mem_cons_of_mem _ hr)) q x hx).congr (hnewest q)
  · rw [hst, inFlightEdits_applyPaddingRetryResult]
    rw [h.flight_count, hperm.countP_eq, List.countP_cons]
    rfl
  · rw [hsrv, h.server_eq, hla, hl]; rfl
  · intro q x hx
    rw [hnewest]
    rcases hcases q x hx with hp | hn
    · rcases h.parked_newest q x hp with hn | ⟨n, hn, hd⟩
      · exact .inl hn
      · exact .inr ⟨n, hn, hdirect q n hd⟩
    · exact .inl hn

theorem inv_step (h : Inv w base) {ev : PaddingEvent} {w' : PaddingWorld}
    (hw : step m w ev = some w') : ∃ base', Inv w' base' := by
  cases ev with
  | edit isPre value => exact ⟨base, inv_edit h isPre value hw⟩
  | retry => exact ⟨base, inv_retry h hw⟩
  | land i o => exact ⟨base, inv_land h i o hw⟩
  | report =>
      obtain ⟨r, o, landed, hl, rfl⟩ := step_report_eq hw
      cases r with
      | direct p e => exact ⟨_, inv_report_direct h hl⟩
      | retry pre post => exact ⟨_, inv_report_retry h hl⟩

end Steps

/-- Every reachable world satisfies the invariant. -/
theorem inv_run {m : Nat} {server : Bool → Int} {events : List PaddingEvent} {w : PaddingWorld}
    (h : run (step m) (init server) events = some w) : ∃ base, Inv w base :=
  invariant (I := fun w => ∃ base, Inv w base) (fun ⟨_, hI⟩ hs => inv_step hI hs)
    ⟨server, inv_init server⟩ h

/-! ## the newest edit of a run -/

/-- The value of the last edit of a side, as the user made them. -/
def newestEdit (isPre : Bool) : List PaddingEvent → Option Int
  | [] => none
  | .edit p v :: es => (newestEdit isPre es).or (if p = isPre then some v else none)
  | _ :: es => newestEdit isPre es

theorem newest_applyResult {m : Nat} {w : PaddingWorld} {r : PaddingRequest} {o : RequestOutcome}
    (hr : ∀ q e, r.sent q = some e → Known w.state q e) (q : Bool) :
    (applyResult m w r o).state.newest q = w.state.newest q := by
  cases r with
  | direct p e => exact newest_applyDirect q _ (hr p e (by simp [PaddingRequest.sent]))
  | retry pre post =>
      rw [(applyResult_retry w m pre post o).1]
      exact newest_applyPaddingRetryResult ..

theorem nextSeq_applyResult {m : Nat} {w : PaddingWorld} {r : PaddingRequest} {o : RequestOutcome}
    (hr : ∀ q e, r.sent q = some e → Known w.state q e) :
    (applyResult m w r o).state.nextSeq = w.state.nextSeq := by
  cases r with
  | direct p e => exact nextSeq_applyDirect _ (hr p e (by simp [PaddingRequest.sent]))
  | retry pre post =>
      rw [(applyResult_retry w m pre post o).1]
      exact nextSeq_applyPaddingRetryResult ..

/-- The add-on's record of the newest edit is the last edit of the run. -/
theorem newest_run {m : Nat} {events : List PaddingEvent} {w w' : PaddingWorld}
    {base : Bool → Int} (hI : Inv w base) (h : run (step m) w events = some w') (q : Bool) :
    (w'.state.newest q).map (·.value) =
      (newestEdit q events).or ((w.state.newest q).map (·.value)) := by
  induction events generalizing w base with
  | nil => simp only [run_nil, Option.some.injEq] at h; subst h; rfl
  | cons ev events ih =>
      obtain ⟨k, hk, hrun⟩ := run_cons_eq_some_iff.mp h
      obtain ⟨base', hI'⟩ := inv_step hI hk
      rw [ih hI' hrun]
      cases ev with
      | edit p v =>
          obtain rfl := step_edit_eq hk
          by_cases hpq : p = q
          · subst hpq; cases hne : newestEdit p events <;> simp [newestEdit, hne]
          · simp [newestEdit, hpq]
      | retry => obtain rfl := step_retry_eq hk; rfl
      | land i o => obtain ⟨r, -, rfl⟩ := step_land_eq hk; rfl
      | report =>
          obtain ⟨r, o, landed, hl, rfl⟩ := step_report_eq hk
          have hmem : r ∈ w.inFlight := by simp [inFlight, hl]
          rw [newest_applyResult (w := { w with landed }) (hI.known_flight r hmem) q]
          rfl

/-- A side's value is only ever dropped by a give-up. -/
theorem gaveUp_of_dropped {m : Nat} {server : Bool → Int} {events : List PaddingEvent}
    {w : PaddingWorld} (h : run (step m) (init server) events = some w) {q : Bool}
    (hd : w.dropped q = true) : w.gaveUp q = true := by
  refine invariant (I := fun w => ∀ q, w.dropped q = true → w.gaveUp q = true) ?_
    (fun q hq => by simp [init] at hq) h q hd
  intro w ev w' hI hw q hq
  cases ev with
  | edit p v =>
      obtain rfl := step_edit_eq hw
      by_cases hpq : p = q
      · simp [hpq] at hq
      · simp only [if_neg hpq] at hq ⊢; exact hI q hq
  | retry => obtain rfl := step_retry_eq hw; exact hI q hq
  | land i o => obtain ⟨r, -, rfl⟩ := step_land_eq hw; exact hI q hq
  | report =>
      obtain ⟨r, o, landed, -, rfl⟩ := step_report_eq hw
      cases r with
      | direct p e => exact hI q hq
      | retry pre post =>
          simp only [applyResult] at hq ⊢
          split
          · rfl
          · next hg => rw [if_neg hg] at hq; exact hI q hq

/-! ## convergence -/

/-- **Convergence on the newest edit**: over every run, a side that is quiet
(nothing of it in flight, nothing parked, no give-up since its newest edit)
has its newest edit's value on the server; and a parked value is the newest
edit's unless that edit's own direct push is still in flight. -/
theorem padding_push_converges {maxRetries : Nat} {server : Bool → Int}
    {events : List PaddingEvent} {w : PaddingWorld}
    (h : run (step maxRetries) (init server) events = some w) (isPre : Bool) :
    ((∀ r ∈ w.inFlight, r.sent isPre = none) → w.state.side isPre = none →
      w.gaveUp isPre = false → ∀ v, newestEdit isPre events = some v → w.server isPre = v) ∧
    (∀ v, w.state.side isPre = some v →
      newestEdit isPre events = some v ∨
        ∃ n, w.state.newest isPre = some n ∧ PaddingRequest.direct isPre n ∈ w.inFlight) := by
  obtain ⟨base, hI⟩ := inv_run h
  have hnew := newest_run (inv_init server) h isPre
  have hinit : (init server).state.newest isPre = none := by cases isPre <;> rfl
  rw [hinit, Option.map_none, Option.or_none] at hnew
  refine ⟨fun hquiet hside hgave v hv => ?_, fun v hv => ?_⟩
  · rw [hv] at hnew
    obtain ⟨n, hn, rfl⟩ := Option.map_eq_some_iff.mp hnew
    have hdropped : w.dropped isPre = false := by
      rw [Bool.eq_false_iff]
      intro hd
      rw [gaveUp_of_dropped h hd] at hgave
      contradiction
    -- with nothing of the side in flight the server is at its reported value
    have hserver : w.server isPre = base isPre := by
      rw [hI.server_eq]
      have hnone : ∀ ro ∈ w.landed, ro.1.sent isPre = none := fun ro hro =>
        hquiet ro.1 (List.mem_append_right _ (List.mem_map_of_mem hro))
      exact foldl_serverAfter_of_none hnone base
    rcases hI.converged isPre n hn hdropped with hp | hd | hb
    · rw [parked_eq_none_iff.mpr hside] at hp; contradiction
    · have := hquiet _ hd
      simp [PaddingRequest.sent] at this
    · rw [hserver, hb]
  · have hp : w.state.parked isPre = some ⟨v, w.state.sideSeq isPre⟩ := by simp [parked, hv]
    rcases hI.parked_newest isPre _ hp with hn | hd
    · rw [hn] at hnew; exact .inl hnew.symm
    · exact .inr hd

/-- Two edits of the start padding land in the wrong order, the older push
being reported as a failure; the retry brings the server to the newer one. -/
theorem padding_push_converges_out_of_order :
    ∃ w, run (step 3) (init fun _ => 0)
        [.edit true 5, .edit true 7, .land 1 .ok, .land 0 .failedLanded, .report, .report,
          .retry, .land 0 .ok, .report] = some w ∧ w.server true = 7 := by
  refine ⟨_, rfl, ?_⟩
  have hrun : run (step 3) (init fun _ => 0)
      [.edit true 5, .edit true 7, .land 1 .ok, .land 0 .failedLanded, .report, .report,
        .retry, .land 0 .ok, .report] = some _ := rfl
  exact (padding_push_converges hrun true).1 (by decide) (by decide) (by decide) 7 (by decide)

end PaddingWorld

end DispatcharrPvr
