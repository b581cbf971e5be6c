import DispatcharrPvr.LiveTimeshift.Reads

/-!
# LiveTimeshift.Opens

An open and a close conduct themselves: what a cold start merges into a stream
is nothing that any call has read, and a stream that an open leaves open is one
that it has placed at the live edge.
-/

namespace DispatcharrPvr

namespace LiveClient

open Interleaving Interleaving.Program Interleaving.Discipline LiveStream

variable {S : Setting} {t : CallId}

/-! ## what an open or a close knows -/

/-- The call that opens or closes a stream. -/
structure Turning (t : CallId) (isOpening : Bool) (c : Client) : Prop where
  switching : Switching t (some isOpening) c
  delivered : c.deliveriesTo t = []
  answered : c.answersOf t = []

/-- The same, and what it has made of the stream. -/
structure Turned (t : CallId) (isOpening isOpen placed : Bool) (c : Client) : Prop
    extends Turning t isOpening c where
  isOpen : c.stream.isOpen = isOpen
  placed : c.record.placed = placed

variable {isOpening isOpen placed : Bool}

theorem Turning.switches {c : Client} (h : Turning t isOpening c) :
    c.switching = some (t, isOpening) :=
  (h.switching isOpening).mpr rfl

theorem lasting_turning : Lasting t (Turning t isOpening) := fun c c' h hsees =>
  ⟨lasting_switching (some isOpening) c c' h.switching hsees, hsees.delivered.trans h.delivered,
    hsees.answers.trans h.answered⟩

theorem lasting_turned : Lasting t (Turned t isOpening isOpen placed) := by
  intro c c' h hsees
  obtain ⟨-, hplaced, hopen⟩ := hsees.opening isOpening h.switches
  exact ⟨lasting_turning c c' h.toTurning hsees, hopen.trans h.isOpen, hplaced.trans h.placed⟩

/-! ## its own commands -/

section Commands

variable {curl : Bool}

theorem keeps_enter :
    (conduct S).Keeps t (Free t (Pending t)) (call (.enter isOpening))
      (To fun _ => Free t (Turning t isOpening)) := by
  refine keeps_call lasting_pending.stable (fun c _ hc => ?_) fun c choice c' a _ hc _ _ hexec => ?_
  · exact ⟨by simp [hc.1.curl], by simp [hc.1.refresh], hc.2.switching⟩
  · simp only [Client.exec] at hexec
    split at hexec
    · contradiction
    · obtain ⟨rfl, -⟩ := Prod.mk.inj (Option.some.inj hexec)
      exact ⟨⟨hc.1.curl, hc.1.refresh⟩, fun b => by simp, hc.2.delivered, hc.2.answered⟩

theorem turned_reset {c : Client} (h : Turning t isOpening c) :
    Turned t isOpening false false c.reset where
  switching := h.switching
  delivered := (Client.deliveriesTo_reset t).trans h.delivered
  answered := h.answered
  isOpen := rfl
  placed := rfl

theorem keeps_resetClosed :
    (conduct S).Keeps t (Knows t curl false (Turning t isOpening)) (call .resetClosed)
      (To fun _ => Knows t curl false (Turned t isOpening false false)) := by
  refine keeps_call lasting_turning.stable (fun c _ hc => ⟨_, hc.2.switches⟩)
    fun c choice c' a _ hc _ _ hexec => ?_
  obtain ⟨rfl, -⟩ := Prod.mk.inj (Option.some.inj hexec)
  exact ⟨⟨hc.1.curl, hc.1.refresh⟩, turned_reset hc.2⟩

theorem keeps_reset :
    (conduct S).Keeps t (Free t (Turning t isOpening)) (call .reset)
      (To fun _ => Free t (Turned t isOpening false false)) := by
  refine keeps_call lasting_turning.stable (fun c _ hc => ⟨_, hc.2.switches⟩)
    fun c choice c' a _ hc _ _ hexec => ?_
  obtain ⟨rfl, -⟩ := Prod.mk.inj (Option.some.inj hexec)
  exact ⟨⟨hc.1.curl, hc.1.refresh⟩, turned_reset hc.2⟩

theorem keeps_setOpen (channelUuid : ByteString) :
    (conduct S).Keeps t (Free t (Turned t true isOpen placed)) (call (.setOpen channelUuid))
      (To fun _ => Free t (Turned t true true placed)) := by
  refine keeps_call lasting_turned.stable (fun c _ hc => hc.2.switches)
    fun c choice c' a _ hc _ _ hexec => ?_
  obtain ⟨rfl, -⟩ := Prod.mk.inj (Option.some.inj hexec)
  exact ⟨⟨hc.1.curl, hc.1.refresh⟩, ⟨hc.2.switching,
    (Client.deliveriesTo_put t).trans hc.2.delivered, hc.2.answered⟩, rfl,
    Client.record_put_placed.trans hc.2.placed⟩

theorem keeps_place :
    (conduct S).Keeps t (Free t (Turned t true isOpen false)) (call .place)
      (To fun _ => Free t (Turned t true isOpen true)) := by
  refine keeps_call lasting_turned.stable (fun c _ hc => ⟨hc.2.switches, hc.2.placed⟩)
    fun c choice c' a _ hc _ _ hexec => ?_
  obtain ⟨rfl, -⟩ := Prod.mk.inj (Option.some.inj hexec)
  exact ⟨⟨hc.1.curl, hc.1.refresh⟩, ⟨hc.2.switching,
    (Client.deliveriesTo_place t).trans hc.2.delivered, hc.2.answered⟩, hc.2.isOpen, rfl⟩

theorem keeps_leave {P : Client → Prop} (hP : Lasting t P)
    (hturned : ∀ c, P c → Turning t isOpening c ∧
      (isOpening = true → c.stream.isOpen = true → c.record.placed = true)) :
    (conduct S).Keeps t (Free t P) (call .leave) (To fun _ => Free t (Pending t)) := by
  refine keeps_call hP.stable
    (fun c _ hc => ⟨_, (hturned c hc.2).1.switches, (hturned c hc.2).2⟩)
    fun c choice c' a _ hc _ _ hexec => ?_
  obtain ⟨rfl, -⟩ := Prod.mk.inj (Option.some.inj hexec)
  have hturning := (hturned c hc.2).1
  exact ⟨⟨hc.1.curl, hc.1.refresh⟩, fun b => by simp, hturning.delivered, hturning.answered⟩

end Commands

/-! ## the calls -/

section Calls

variable {K : Client → Prop}

/-- **A close** leaves no stream. -/
theorem keeps_close :
    (conduct S).Keeps t (Free t (Turning t isOpening)) closeLiveTimeshiftStream
      (To fun _ => Free t (Turned t isOpening false false)) := by
  have hbegin : (conduct S).Keeps t (Free t (Turning t isOpening)) (call .beginClose)
      (To fun _ => Free t (Turning t isOpening)) :=
    keeps_idly trivial lasting_turning fun _ => trivial
  have hend : (conduct S).Keeps t (Free t (Turning t isOpening))
      ((call .lockCurl).bind fun _ => (call .resetClosed).bind fun _ => call .unlockCurl)
      (To fun _ => Free t (Turned t isOpening false false)) :=
    keeps_then (keeps_lockCurl lasting_turning) fun _ => keeps_then keeps_resetClosed fun _ =>
      keeps_unlockCurl lasting_turned
  refine keeps_then hbegin fun closing => ?_
  dsimp only
  split
  · exact keeps_then (keeps_idly trivial lasting_turning fun _ => trivial) fun _ => hend
  · exact hend

theorem keeps_startTries (hK : Lasting t K) (channelUuid : ByteString) (left : Nat)
    (lastAttemptRetryable : Bool) :
    (conduct S).Keeps t (Free t K) (startTries channelUuid left lastAttemptRetryable)
      (To fun _ => Free t K) := by
  induction left generalizing lastAttemptRetryable with
  | zero => exact keeps_done fun c hc => hc
  | succ left ih =>
      have hstart : (conduct S).Keeps t (Free t K) (call (.startBuffer channelUuid))
          (To fun _ => Free t K) := keeps_idly trivial hK fun _ => trivial
      have htoken : ∀ accessToken, (conduct S).Keeps t (Free t K) (call (.setToken accessToken))
          (To fun _ => Free t K) := fun _ => keeps_idly trivial hK fun _ => trivial
      have hsleep : (conduct S).Keeps t (Free t K) (call (.sleep 500)) (To fun _ => Free t K) :=
        keeps_idly trivial hK fun _ => trivial
      refine keeps_then hstart fun started => ?_
      obtain ⟨started, retryable, accessToken⟩ := started
      refine keeps_ite (keeps_ite (keeps_done fun c hc => hc) ?_)
        (keeps_ite ?_ (keeps_done fun c hc => hc))
      · exact keeps_then (htoken accessToken) fun _ => keeps_done fun c hc => hc
      · exact keeps_then hsleep fun _ => ih true

theorem keeps_coldStart (hK : Lasting t K) (began : Int) (left attempt : Nat) :
    (conduct S).Keeps t (Free t K) (coldStart S.shortRequestTimeoutMs began left attempt)
      (To fun _ => Free t K) := by
  induction left generalizing attempt with
  | zero => exact keeps_done fun c hc => hc
  | succ left ih =>
      have hrefresh : (conduct S).Keeps t (Free t K) (refreshLiveManifest true)
          (To fun _ => Free t K) :=
        (keeps_refresh 0 hK true).weaken (fun c _ hc => ⟨hc.1, hc.2, Nat.zero_le _⟩)
          (To.mono fun _ _ h => ⟨h.1, h.2.1⟩)
      have hnow : (conduct S).Keeps t (Free t K) (call .now) (To fun _ => Free t K) :=
        keeps_idly trivial hK fun _ => trivial
      have hsleep : (conduct S).Keeps t (Free t K) (call (.sleep 500)) (To fun _ => Free t K) :=
        keeps_idly trivial hK fun _ => trivial
      refine keeps_then hrefresh fun refresh => ?_
      refine keeps_ite (keeps_done fun c hc => hc) (keeps_ite (keeps_done fun c hc => hc) ?_)
      refine keeps_then hnow fun now => keeps_ite (keeps_done fun c hc => hc) ?_
      exact keeps_then hsleep fun _ => ih (attempt + 1)

theorem keeps_abandonOpen (channelUuid viewerId : ByteString) (registered : Bool) :
    (conduct S).Keeps t (Free t (Turning t true)) (abandonOpen channelUuid viewerId registered)
      (To fun opened => Free t (Turned t true opened opened)) := by
  have hend : (conduct S).Keeps t (Free t (Turning t true))
      ((call .reset).bind fun _ => .done false)
      (To fun opened => Free t (Turned t true opened opened)) :=
    keeps_then keeps_reset fun _ => keeps_done fun c hc => hc
  cases registered with
  | false => exact hend
  | true =>
      have htoken : (conduct S).Keeps t (Free t (Turning t true)) (call .accessToken)
          (To fun _ => Free t (Turning t true)) :=
        keeps_idly trivial lasting_turning fun _ => trivial
      have hstop : ∀ accessToken, (conduct S).Keeps t (Free t (Turning t true))
          (call (.stopBuffer channelUuid viewerId accessToken))
          (To fun _ => Free t (Turning t true)) := fun _ =>
        keeps_idly trivial lasting_turning fun _ => trivial
      exact keeps_then htoken fun accessToken => keeps_then (hstop accessToken) fun _ => hend

/-- **An open** leaves a stream open only when it has placed it. -/
theorem keeps_open (channelUuid : ByteString) :
    (conduct S).Keeps t (Free t (Turning t true))
      (openLiveTimeshiftStream S.shortRequestTimeoutMs channelUuid)
      (To fun opened => Free t (Turned t true opened opened)) := by
  have habandon : ∀ {isOpen placed : Bool} (viewerId : ByteString) (registered : Bool),
      (conduct S).Keeps t (Free t (Turned t true isOpen placed))
        (abandonOpen channelUuid viewerId registered)
        (To fun opened => Free t (Turned t true opened opened)) := fun viewerId registered =>
    (keeps_abandonOpen channelUuid viewerId registered).pre fun c _ hc => ⟨hc.1, hc.2.toTurning⟩
  have hidly : ∀ {isOpen placed : Bool} {cmd : Cmd}, Quiet cmd →
      (∀ c, Promise S.content t c cmd) →
      (conduct S).Keeps t (Free t (Turned t true isOpen placed)) (call cmd)
        (To fun _ => Free t (Turned t true isOpen placed)) := fun hquiet hpromise =>
    keeps_idly hquiet lasting_turned hpromise
  refine keeps_then keeps_close fun _ => ?_
  refine keeps_then (keeps_reset.pre fun c _ hc => ⟨hc.1, hc.2.toTurning⟩) fun _ => ?_
  refine keeps_then (hidly trivial fun _ => trivial) fun viewerId => ?_
  refine keeps_then (hidly trivial fun _ => trivial) fun _ => ?_
  refine keeps_then (keeps_startTries lasting_turned channelUuid 20 false) fun started => ?_
  refine keeps_ite ?_ (habandon viewerId _)
  refine keeps_then (keeps_setOpen channelUuid) fun _ => ?_
  refine keeps_then (hidly trivial fun _ => trivial) fun began => ?_
  refine keeps_then (keeps_coldStart lasting_turned began _ 0) fun ready => ?_
  refine keeps_ite ?_ (habandon viewerId true)
  refine keeps_then (hidly trivial fun _ => trivial) fun target => ?_
  have hreached : ∀ (probePort : Int) (reachable : Bool),
      (conduct S).Keeps t (Free t (Turned t true true false))
        (if reachable then (call .place).bind fun _ => .done true
        else (call (.notify (buildTimeshiftFileServerUnreachableMessage probePort))).bind fun _ =>
          abandonOpen channelUuid viewerId true)
        (To fun opened => Free t (Turned t true opened opened)) := fun probePort reachable =>
    keeps_ite (keeps_then keeps_place fun _ => keeps_done fun c hc => hc)
      (keeps_then (hidly trivial fun _ => trivial) fun _ => habandon viewerId true)
  obtain ⟨probeUrl, probePort⟩ := target
  refine keeps_ite (hreached probePort true) ?_
  exact keeps_then (hidly trivial fun _ => trivial) fun reachable => hreached probePort reachable

end Calls

end LiveClient

end DispatcharrPvr
