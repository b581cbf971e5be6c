import DispatcharrPvr.InProgressRecording.Reads

/-!
# InProgressRecording.Opens

An open and a close conduct themselves: while one of them is under way the session
is its own, and no other call changes which stream is open.
-/

namespace DispatcharrPvr

namespace RecordingClient

open Interleaving Interleaving.Program Interleaving.Discipline InProgressStream

variable {S : Setting} {t : CallId}

/-! ## what an open or a close knows -/

/-- The call that opens or closes a stream. -/
structure Turning (t : CallId) (c : Client) : Prop where
  switching : c.switching = some t
  delivered : c.deliveriesTo t = []
  answered : c.answersOf t = []

/-- The same, and what it has made of the stream. -/
structure Turned (t : CallId) (isOpen : Bool) (c : Client) : Prop extends Turning t c where
  isOpen : c.stream.isOpen = isOpen

variable {isOpen : Bool}

theorem lasting_turning : Lasting t (Turning t) := fun _ _ h hsees =>
  ⟨hsees.switching.mpr h.switching, hsees.delivered.trans h.delivered,
    hsees.answers.trans h.answered⟩

theorem lasting_turned : Lasting t (Turned t isOpen) := by
  intro c c' h hsees
  obtain ⟨hopen, -, -⟩ := hsees.same (hsees.alone h.switching)
  exact ⟨lasting_turning c c' h.toTurning hsees, hopen.trans h.isOpen⟩

/-- Another stream, of the call that opens or closes it. -/
theorem turned_renew {c : Client} {s : InProgressStream} (h : Turning t c)
    (hopen : s.isOpen = isOpen) : Turned t isOpen (c.renew s) where
  switching := h.switching
  delivered := (Client.deliveriesTo_renew t).trans h.delivered
  answered := h.answered
  isOpen := hopen

/-! ## its own commands -/

section Commands

theorem keeps_enter :
    (conduct S).Keeps t (Free t (Pending t)) (call .enter) (To fun _ => Free t (Turning t)) := by
  refine keeps_call lasting_pending.stable (fun c _ hc => ?_) fun c choice c' a _ hc _ _ hexec => ?_
  · exact ⟨by simp [hc.1.curl], by simp [hc.1.refresh], hc.2.switching⟩
  · simp only [Client.exec] at hexec
    split at hexec
    · contradiction
    · obtain ⟨rfl, -⟩ := Prod.mk.inj (Option.some.inj hexec)
      exact ⟨⟨hc.1.curl, hc.1.refresh⟩, rfl, hc.2.delivered, hc.2.answered⟩

theorem keeps_leave :
    (conduct S).Keeps t (Free t (Turning t)) (call .leave) (To fun _ => Free t (Pending t)) := by
  refine keeps_call lasting_turning.stable (fun c _ hc => hc.2.switching)
    fun c choice c' a _ hc _ _ hexec => ?_
  obtain ⟨rfl, -⟩ := Prod.mk.inj (Option.some.inj hexec)
  exact ⟨⟨hc.1.curl, hc.1.refresh⟩, by simp, hc.2.delivered, hc.2.answered⟩

theorem keeps_reset {curl : Bool} :
    (conduct S).Keeps t (Knows t curl false (Turning t)) (call .reset)
      (To fun _ => Knows t curl false (Turned t false)) := by
  refine keeps_call lasting_turning.stable (fun c _ hc => hc.2.switching)
    fun c choice c' a _ hc _ _ hexec => ?_
  obtain ⟨rfl, -⟩ := Prod.mk.inj (Option.some.inj hexec)
  exact ⟨⟨hc.1.curl, hc.1.refresh⟩, turned_renew hc.2 rfl⟩

theorem keeps_setOpen (recordingId startTime : Int) :
    (conduct S).Keeps t (Free t (Turned t false)) (call (.setOpen recordingId startTime))
      (To fun _ => Free t (Turned t true)) := by
  refine keeps_call lasting_turned.stable (fun c _ hc => ⟨hc.2.switching, hc.2.isOpen⟩)
    fun c choice c' a _ hc _ _ hexec => ?_
  obtain ⟨rfl, -⟩ := Prod.mk.inj (Option.some.inj hexec)
  refine ⟨⟨hc.1.curl, hc.1.refresh⟩, turned_renew hc.2.toTurning ?_⟩
  cases c.cache recordingId <;> rfl

end Commands

/-! ## the calls -/

/-- **A close** leaves no stream. -/
theorem keeps_close :
    (conduct S).Keeps t (Free t (Turning t)) closeInProgressRecordingStream
      (To fun _ => Free t (Turned t false)) :=
  keeps_then (keeps_lockCurl lasting_turning) fun _ => keeps_then keeps_reset fun _ =>
    keeps_unlockCurl lasting_turned

/-- **The cold start** leaves the stream open. -/
theorem keeps_coldStart {K : Client → Prop} (hK : Lasting t K) (budget began : Int) (left : Nat) :
    (conduct S).Keeps t (Free t K) (coldStart budget began left) (To fun _ => Free t K) := by
  induction left with
  | zero => exact keeps_done fun c hc => hc
  | succ left ih =>
      have hidly : ∀ {cmd : Cmd}, Quiet cmd → (∀ c, Promise S t c cmd) →
          (conduct S).Keeps t (Free t K) (call cmd) (To fun _ => Free t K) :=
        fun hquiet hpromise => keeps_idly hquiet hK.stable fun c _ => hpromise c
      refine keeps_then (keeps_refresh hK true fun _ => rfl) fun refresh => ?_
      refine keeps_then (hidly trivial fun _ => trivial) fun look => ?_
      obtain ⟨haveSegments, finished⟩ := look
      dsimp only
      cases decideInProgressColdStartStep refresh.ok refresh.retryable haveSegments finished with
      | ready | finishedEmpty | fail | finishedPlaylistGone => exact keeps_done fun c hc => hc
      | wait =>
          refine keeps_then (hidly trivial fun _ => trivial) fun now => ?_
          refine keeps_ite ?_ (keeps_done fun c hc => hc)
          exact keeps_then (hidly trivial fun _ => trivial) fun _ => ih

/-- **An open** leaves a stream open just when it says so. -/
theorem keeps_open (shortRequestTimeoutMs recordingId startTime : Int) :
    (conduct S).Keeps t (Free t (Turning t))
      (openInProgressRecordingStream shortRequestTimeoutMs recordingId startTime)
      (To fun opened => Free t (Turned t opened.1)) := by
  have hidly : ∀ {cmd : Cmd}, Quiet cmd → (∀ c, Turned t true c → Promise S t c cmd) →
      (conduct S).Keeps t (Free t (Turned t true)) (call cmd)
        (To fun _ => Free t (Turned t true)) :=
    fun hquiet hpromise => keeps_idly hquiet lasting_turned.stable hpromise
  have habandon : ∀ finishedPlaylistGone : Bool, (conduct S).Keeps t (Free t (Turned t true))
      ((call .reset).bind fun _ => .done (false, finishedPlaylistGone))
      (To fun opened => Free t (Turned t opened.1)) := fun finishedPlaylistGone =>
    keeps_then (keeps_reset.pre fun c _ hc => ⟨hc.1, hc.2.toTurning⟩) fun _ =>
      keeps_done fun c hc => hc
  refine keeps_then keeps_close fun _ => ?_
  refine keeps_then (keeps_setOpen recordingId startTime) fun _ => ?_
  refine keeps_then (hidly trivial fun _ _ => trivial) fun began => ?_
  refine keeps_then (keeps_coldStart lasting_turned _ began kColdStartMaxAttempts)
    fun started => ?_
  have hplaced : (conduct S).Keeps t (Free t (Turned t true))
      ((call .coldStartLook).bind fun look =>
        if started != .haveSegment && !look.2 then (call .reset).bind fun _ => .done (false, false)
        else (call .place).bind fun _ => .done (true, false))
      (To fun opened => Free t (Turned t opened.1)) :=
    keeps_then (hidly trivial fun _ _ => trivial) fun look => keeps_ite (habandon false)
      (keeps_then (hidly trivial fun _ hc => hc.isOpen) fun _ => keeps_done fun c hc => hc)
  cases started with
  | failed finishedPlaylistGone => exact habandon finishedPlaylistGone
  | haveSegment | stopWaiting => exact hplaced

end RecordingClient

end DispatcharrPvr
