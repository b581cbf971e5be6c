import DispatcharrPvr.PaddingPush.Serialised

/-!
# PaddingPush.Sync

The padding sync from the server against the edits of a session.  The check
`IsSafeToSyncPaddingFromServer` sees an edit that is parked, an edit whose
direct push is still in flight and an edit begun since the sync started.  What
it cannot see is a push that was waiting for the settings mutex when the GET
ran and has finished by the time of the check: `Undisturbed` says that the
successes applied in between wrote what the GET had read, and under it a safe
answer never reverts an edit.
-/

namespace DispatcharrPvr

open Runs PendingPaddingPush

namespace PaddingSession

/-- A safe answer is right: the value read for each side is its newest edit's,
unless that edit was given up. -/
def SyncKeepsEdits (s : PaddingSession) : Prop :=
  match s.sync with
  | .checked true value =>
      ∀ q n, s.world.state.newest q = some n → s.world.dropped q = false → value q = n.value
  | _ => True

/-- A success of a side's newest edit that is applied between the GET and the
check wrote the value the GET had read. -/
def Undisturbed (s : PaddingSession) : SessionEvent → Prop
  | .apply =>
      match s.sync, s.world.landed with
      | .read _ value, (r, o) :: _ =>
          o.isOk = true → ∀ q, ∀ e ∈ r.sent q, s.world.state.newest q = some e → e.value = value q
      | _, _ => True
  | _ => True

instance (s : PaddingSession) (e : SessionEvent) : Decidable (Undisturbed s e) := by
  cases e with
  | apply =>
      obtain ⟨⟨_, _, _, landed⟩, _, sync⟩ := s
      cases sync with
      | read _ _ =>
          cases landed with
          | nil => exact .isTrue trivial
          | cons _ _ =>
              dsimp only [Undisturbed]
              infer_instance
      | _ => exact .isTrue trivial
  | _ => exact .isTrue trivial

/-- While the sync is under way no edit is forgotten: with no edit begun since
it started, the values read cover every newest edit. -/
def SyncCovers (s : PaddingSession) : Prop :=
  match s.sync with
  | .started seq => seq ≤ s.world.state.nextSeq
  | .read seq value =>
      seq ≤ s.world.state.nextSeq ∧ (s.world.state.nextSeq = seq → s.world.Covered value)
  | _ => True

section Steps

variable {m : Nat} {s s' : PaddingSession}

/-- An edit begun while the sync is under way takes `nextSeq` past the number
the sync started with. -/
theorem syncCovers_edit (h : SyncCovers s) {isPre : Bool} {value : Int}
    (hs : step m s (.edit isPre value) = some s') : SyncCovers s' := by
  obtain ⟨world, hw, rfl⟩ := step_edit_eq hs
  obtain rfl := PaddingWorld.step_edit_eq hw
  cases hsync : s.sync with
  | idle => trivial
  | checked safe value => trivial
  | started seq =>
      simp only [SyncCovers, hsync, nextSeq_beginPaddingEdit] at h ⊢
      omega
  | read seq value =>
      simp only [SyncCovers, hsync, nextSeq_beginPaddingEdit] at h ⊢
      refine ⟨by omega, fun heq => ?_⟩
      omega

/-- The other requests' steps leave the bookkeeping to the result. -/
theorem syncCovers_world {world : PaddingWorld} {sending : Option Nat} (h : SyncCovers s)
    (hseq : world.state.nextSeq = s.world.state.nextSeq)
    (hcov : ∀ v, s.world.Covered v → world.Covered v) :
    SyncCovers { s with world, sending } := by
  cases hsync : s.sync with
  | idle => trivial
  | checked safe value => trivial
  | started seq => simpa only [SyncCovers, hsync, hseq] using h
  | read seq value =>
      simp only [SyncCovers, hsync, hseq] at h ⊢
      exact ⟨h.1, fun heq => hcov value (h.2 heq)⟩

theorem syncCovers_apply (hR : Reachable s) (h : SyncCovers s) (hC : Undisturbed s .apply)
    (hs : step m s .apply = some s') : SyncCovers s' := by
  obtain ⟨r, o, hl, hk, -, rfl⟩ := hR.due hs
  obtain ⟨-, base, hI⟩ := hR
  have hseq : (PaddingWorld.applyResult m { s.world with landed := [] } r o).state.nextSeq =
      s.world.state.nextSeq := PaddingWorld.nextSeq_applyResult hk
  cases hsync : s.sync with
  | idle => trivial
  | checked safe value => trivial
  | started seq => simpa only [SyncCovers, hsync, hseq] using h
  | read seq value =>
      simp only [SyncCovers, hsync, hseq] at h ⊢
      simp only [Undisturbed, hsync, hl] at hC
      refine ⟨h.1, fun heq => ?_⟩
      refine PaddingWorld.covered_report hk hI.known_parked hl (h.2 heq) (fun _ _ _ hv => hv) ?_
      intro q n hn hsent hok
      exact (hC hok q n hsent hn).symm

/-- What the GET reads covers every newest edit, as nobody holds the mutex. -/
theorem syncCovers_syncGet (hR : Reachable s) (h : SyncCovers s)
    (hs : step m s .syncGet = some s') : SyncCovers s' := by
  obtain ⟨-, hnil, seq, hsync, rfl⟩ := step_syncGet_eq hs
  obtain ⟨-, base, hI⟩ := hR
  simp only [SyncCovers, hsync] at h ⊢
  have hserver : s.world.server = base := by rw [hI.server_eq, hnil]; rfl
  exact ⟨h, fun _ => hserver ▸ hI.converged⟩

theorem syncCovers_step (hR : Reachable s) (h : SyncCovers s) {e : SessionEvent}
    (hC : Undisturbed s e) (hs : step m s e = some s') : SyncCovers s' := by
  cases e with
  | edit p v => exact syncCovers_edit h hs
  | pushStart i =>
      obtain ⟨-, -, rfl⟩ := step_pushStart_eq hs
      exact syncCovers_world h rfl fun _ hv => hv
  | retryStart =>
      obtain ⟨-, -, world, hw, rfl⟩ := step_retryStart_eq hs
      refine syncCovers_world h ?_ fun _ hv => PaddingWorld.covered_retry hv hw
      rw [PaddingWorld.step_retry_eq hw]
  | land o =>
      obtain ⟨i, world, -, hw, rfl⟩ := step_land_eq hs
      refine syncCovers_world h ?_ fun _ hv => PaddingWorld.covered_land hv hw
      obtain ⟨r, -, rfl⟩ := PaddingWorld.step_land_eq hw
      rfl
  | apply => exact syncCovers_apply hR h hC hs
  | syncStart => obtain rfl := step_syncStart_eq hs; exact Nat.le_refl _
  | syncGet => exact syncCovers_syncGet hR h hs
  | syncCheck => obtain ⟨seq, value, -, rfl⟩ := step_syncCheck_eq hs; trivial

/-- A safe answer given while the read covers every newest edit is right. -/
theorem syncKeepsEdits_check (hR : Reachable s) (h : SyncCovers s)
    (hs : step m s .syncCheck = some s') : SyncKeepsEdits s' := by
  obtain ⟨seq, value, hsync, rfl⟩ := step_syncCheck_eq hs
  obtain ⟨-, base, hI⟩ := hR
  simp only [SyncCovers, hsync] at h
  simp only [SyncKeepsEdits]
  split
  · next safe read heq =>
      obtain ⟨hsafe, rfl⟩ := PaddingSync.checked.inj heq
      simp only [isSafeToSyncPaddingFromServer, Bool.and_eq_true, Bool.not_eq_true',
        beq_iff_eq] at hsafe
      obtain ⟨⟨hpending, hflight⟩, hseq⟩ := hsafe
      have hparked := hasPending_eq_false_iff.mp hpending
      intro q n hn hdrop
      rcases h.2 hseq q n hn hdrop with hp | hd | hv
      · rw [hparked q] at hp
        contradiction
      · have hpos : 0 < s.world.inFlight.countP (·.isDirect) :=
          List.countP_pos_iff.mpr ⟨_, hd, rfl⟩
        rw [← hI.flight_count, hflight] at hpos
        omega
      · exact hv
  · trivial

end Steps

/-- **When a sync never reverts an edit**: in every run whose steps are all
undisturbed, a safe answer of the check is right. -/
theorem sync_keeps_edits {m : Nat} {server : Bool → Int} {events : List SessionEvent}
    {s : PaddingSession} (h : run (step m) (init server) (events ++ [.syncCheck]) = some s)
    (hC : Meets (step m) Undisturbed (init server) events) : SyncKeepsEdits s := by
  obtain ⟨k, hrun, hcheck⟩ := run_concat_eq_some_iff.mp h
  have hinv : Reachable k ∧ SyncCovers k :=
    invariant_of_meets (I := fun s => Reachable s ∧ SyncCovers s)
      (fun ⟨hR, hcov⟩ hC hs => ⟨reachable_step hR hs, syncCovers_step hR hcov hC hs⟩)
      ⟨reachable_init server, trivial⟩ hC hrun
  exact syncKeepsEdits_check hinv.1 hinv.2 hcheck

/-- An edit whose push lands before the GET: the check answers safe, with the
edit's own value. -/
theorem sync_keeps_edits_after_push :
    ∃ s, run (step 3) (init fun _ => 0)
        ([.edit true 5, .syncStart, .pushStart 0, .land .ok, .apply, .syncGet] ++
          [.syncCheck]) = some s ∧
      SyncKeepsEdits s ∧ ∃ value, s.sync = .checked true value ∧ value true = 5 := by
  have hrun : run (step 3) (init fun _ => 0)
      ([.edit true 5, .syncStart, .pushStart 0, .land .ok, .apply, .syncGet] ++
        [.syncCheck]) = some _ := rfl
  exact ⟨_, hrun, sync_keeps_edits hrun (by decide), _, rfl, rfl⟩

/-- The push of an edit made before the sync starts waits behind the GET and
finishes before the check: the check answers safe with the server's old value. -/
theorem sync_reverts_edit :
    ∃ s, run (step 3) (init fun _ => 0)
        [.edit true 5, .syncStart, .syncGet, .pushStart 0, .land .ok, .apply, .syncCheck] =
          some s ∧
      (∃ value, s.sync = .checked true value ∧ value true = 0) ∧
      s.world.state.newest true = some ⟨5, 1⟩ ∧ s.world.dropped true = false ∧
      ¬ SyncKeepsEdits s := by
  refine ⟨_, rfl, ⟨_, rfl, rfl⟩, rfl, rfl, fun h => ?_⟩
  exact absurd (h true ⟨5, 1⟩ rfl rfl) (by decide)

end PaddingSession

end DispatcharrPvr
