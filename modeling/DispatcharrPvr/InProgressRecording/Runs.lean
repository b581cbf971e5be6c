import DispatcharrPvr.InProgressRecording.Opens

/-!
# InProgressRecording.Runs

What holds of the calls on a recording in progress, whatever the interleaving of
their steps: they make of the client what some events make of it one after the
other, reads hand back just what the segments' files hold, no call fails, and no
two of them wait for each other.
-/

namespace DispatcharrPvr

namespace RecordingClient

open Interleaving Interleaving.Program Interleaving.Discipline InProgressStream ReadLog Runs

variable {S : Setting} {t : CallId}

/-! ## whole calls -/

/-- What a call that has ended has handed back, and what was handed over to it. -/
def Ended (t : CallId) : Call → Client → Prop
  | .read _, c => ∃ result bytes, c.answersOf t = [(t, result, bytes)] ∧
      HandsBack (c.deliveriesTo t) result bytes
  | _, c => c.answersOf t = [] ∧ c.deliveriesTo t = []

/-- The same, with nothing left to be done. -/
structure Rests (t : CallId) (call : Call) (c : Client) : Prop where
  switching : c.switching ≠ some t
  ended : Ended t call c

theorem lasting_rests (call : Call) : Lasting t (Rests t call) := by
  rintro c c' ⟨hswitching, hended⟩ hsees
  refine ⟨fun hmine => hswitching (hsees.switching.mp hmine), ?_⟩
  cases call <;> simpa only [Ended, hsees.answers, hsees.delivered] using hended

theorem Pending.rests {c : Client} {call : Call} (h : Pending t c)
    (hcall : ∀ size, call ≠ .read size) : Rests t call c := by
  refine ⟨h.switching, ?_⟩
  cases call with
  | read size => exact absurd rfl (hcall size)
  | seek | length | duration | «open» | close => exact ⟨h.answered, h.delivered⟩

theorem keeps_answer (result : Int) (bytes : ByteString) (size : Nat) :
    (conduct S).Keeps t (Free t (Ready t result bytes)) (call (.answer result bytes))
      (To fun _ => Free t (Rests t (.read size))) := by
  refine keeps_call lasting_ready.stable (fun c _ hc => hc.2.delivered)
    fun c choice c' a _ hc _ _ hexec => ?_
  obtain ⟨rfl, -⟩ := Prod.mk.inj (Option.some.inj hexec)
  refine ⟨⟨hc.1.curl, hc.1.refresh⟩, hc.2.switching, result, bytes, ?_, hc.2.delivered⟩
  have hnone : List.filter (·.1 == t) c.answers = [] := hc.2.answered
  simp [Client.answersOf, hnone]

/-- **Every call** conducts itself. -/
theorem keeps_program (shortRequestTimeoutMs : Int) (call : Call) :
    (conduct S).Keeps t (Free t (Pending t)) (call.program shortRequestTimeoutMs)
      (To fun _ => Free t (Rests t call)) := by
  have hrests : (∀ size, call ≠ .read size) → ∀ (_ : Unit) c, Free t (Pending t) c →
      Free t (Rests t call) c := fun hcall _ c hc => ⟨hc.1, hc.2.rests hcall⟩
  have hleave : (∀ size, call ≠ .read size) → ∀ {isOpen : Bool},
      (conduct S).Keeps t (Free t (Turned t isOpen)) (RecordingClient.call .leave)
        (To fun _ => Free t (Rests t call)) := fun hcall =>
    keeps_leave.weaken (fun c _ hc => ⟨hc.1, hc.2.toTurning⟩) (To.mono (hrests hcall))
  cases call with
  | read size =>
      exact keeps_then (keeps_readInProgressRecordingStream size) fun answer =>
        keeps_answer _ _ size
  | seek position whence =>
      exact keeps_then (keeps_seek lasting_pending position whence) fun _ =>
        keeps_done (hrests (by simp) ())
  | length =>
      have hlength : (conduct S).Keeps t (Free t (Pending t)) getInProgressRecordingStreamLength
          (To fun _ => Free t (Pending t)) :=
        keeps_length lasting_pending .totalBytes trivial fun _ => trivial
      exact keeps_then hlength fun _ => keeps_done (hrests (by simp) ())
  | duration =>
      have hduration : (conduct S).Keeps t (Free t (Pending t))
          getInProgressRecordingStreamDurationMs (To fun _ => Free t (Pending t)) :=
        keeps_length lasting_pending .totalDurationMs trivial fun _ => trivial
      exact keeps_then hduration fun _ => keeps_done (hrests (by simp) ())
  | «open» recordingId startTime =>
      exact keeps_then keeps_enter fun _ =>
        keeps_then (keeps_open shortRequestTimeoutMs recordingId startTime) fun opened =>
          hleave (by simp)
  | close =>
      exact keeps_then keeps_enter fun _ => keeps_then keeps_close fun _ => hleave (by simp)

/-! ## whole runs -/

theorem inv_init (S : Setting) : Inv S {} where
  acts := ⟨[], rfl⟩
  closed _ := rfl
  caches hcaches := absurd rfl hcaches
  segments := rfl
  position := rfl
  faithful r hr := by
    obtain rfl := List.mem_singleton.mp hr
    exact trivial
  session := rfl
  answers a ha := by cases ha

/-- What happens by itself. -/
theorem env_keeps {c c' : Client} {e : Env} (hinv : Inv S c) (h : c.env e = some c') :
    Inv S c' ∧ ∀ t, Rely t c c' := by
  cases e with
  | tick elapsed =>
      obtain rfl := Option.some.inj h
      have heffect : Effect S 0 c none { c with clock := c.clock + elapsed } := .waits elapsed
      refine ⟨hinv.step heffect, fun t => ?_⟩
      exact { Rely.refl t c with
        clock := by
          show c.clock ≤ c.clock + elapsed
          omega }
  | abort =>
      obtain rfl := Option.some.inj h
      exact ⟨{ hinv with }, fun t => { Rely.refl t c with }⟩

/-- The calls of a setting, each on a thread of its own. -/
abbrev Setting.machine (S : Setting) :
    Machine Client CallId Choice Env Cmd Cmd.Answer Failure :=
  RecordingClient.machine S.server S.calls

/-- Every step of a run is one that is supposed to happen. -/
def Setting.Supposed (S : Setting) (es : List (Event CallId Choice Env)) : Prop :=
  Meets S.machine.step (Taken fun _ _ => supposed S.content) { world := {} } es

/-- The calls have conducted themselves. -/
abbrev Setting.Holds (S : Setting) (c : Config Client CallId Cmd Cmd.Answer Failure) : Prop :=
  (conduct S).Holds (fun t => Free t (Pending t)) (fun t => To fun _ => Free t (Rests t (S.calls t)))
    c

variable {es : List (Event CallId Choice Env)}
  {c c' : Config Client CallId Cmd Cmd.Answer Failure}

theorem holds_init (S : Setting) : S.Holds { world := {} } where
  inv := inv_init S
  safe := by simp
  idle _ _ := ⟨⟨by simp, by simp⟩, by simp, rfl, rfl⟩

/-- They go on to. -/
theorem holds_step {e : Event CallId Choice Env} (h : S.Holds c)
    (htaken : Taken (fun _ _ => supposed S.content) c e) (hstep : S.machine.step c e = some c') :
    S.Holds c' := by
  refine h.step (fun t => lasting_pending.stable) (fun t r => ?_)
    (fun t => keeps_program S.server.shortRequestTimeoutMs (S.calls t))
    (fun c e c' hinv _ henv => env_keeps hinv henv)
    (supposed_of_taken (fun _ _ => trivial) htaken) hstep
  cases r with
  | ok a => exact (lasting_rests (S.calls t)).stable
  | error e => exact fun _ _ h _ => h

/-- In every state reached the calls have conducted themselves. -/
theorem holds_of_run (hsupposed : S.Supposed es)
    (hrun : run S.machine.step { world := {} } es = some c) : S.Holds c :=
  invariant_of_meets holds_step (holds_init S) hsupposed hrun

/-! ## one at a time -/

/-- The event of `InProgressClient` that an event of a run is, if any. -/
def eventOf (c : Config Client CallId Cmd Cmd.Answer Failure) :
    Event CallId Choice Env → Option InProgressEvent
  | .steps t _ =>
      match c.left t with
      | some (.call cmd _) => c.world.eventOf t cmd
      | _ => none
  | _ => none

/-- The events of a run from the start. -/
def Setting.events (S : Setting) (es : List (Event CallId Choice Env)) : List InProgressEvent :=
  labels S.machine.step eventOf { world := {} } es

/-- What a step makes of the client is what its event makes of `InProgressClient`. -/
theorem acts_of_step {e : Event CallId Choice Env} (h : S.Holds c)
    (hstep : S.machine.step c e = some c') : Acts S (eventOf c e) c.world c'.world := by
  rcases Machine.step_cases hstep with ⟨t, rfl, hsame⟩ |
    ⟨t, choice, cmd, next, r, rfl, hleft, hexec⟩ | ⟨e', rfl, henv⟩
  · exact congrArg Client.view hsame
  · have hevent : eventOf c (.steps t choice) = c.world.eventOf t cmd := by
      simp only [eventOf, hleft]
    rw [hevent]
    exact (exec_effect h.inv (h.promise hleft) hexec).acts h.inv
  · cases e' with
    | tick elapsed =>
        rw [← Option.some.inj henv]
        exact rfl
    | abort =>
        rw [← Option.some.inj henv]
        exact rfl

/-- The client after events that come one after the other. -/
theorem after_client (source : InProgressSource) (events : List InProgressEvent) :
    (StreamHistory.after source events).client =
      events.foldl (InProgressClient.next source) {} := by
  have hfrom : ∀ (events : List InProgressEvent) (history : StreamHistory),
      (events.foldl (StreamHistory.next source) history).client =
        events.foldl (InProgressClient.next source) history.client := by
    intro events
    induction events with
    | nil => exact fun _ => rfl
    | cons event events ih => exact fun history => ih (history.next source event)
  exact hfrom events {}

/-- The client of a run is what its events come to. -/
theorem after_events (hsupposed : S.Supposed es)
    (hrun : run S.machine.step { world := {} } es = some c) :
    (StreamHistory.after (S.source 0) (S.events es)).client = c.world.view := by
  rw [after_client]
  exact foldl_labels eventOf (InProgressClient.next (S.source 0)) (fun c => c.world.view)
    holds_step (fun h _ hstep => acts_of_step h hstep) (holds_init S) hsupposed hrun

/-- **The calls act one at a time.** Whatever the interleaving, the cache and the stream
are what `InProgressClient` comes to by the events of the run, one after the other: its
opens and closes, and each of its refreshes, with what its own requests were answered,
as one event at its end.  As the run goes on, so does that history.  What is no event,
such as the end of a refresh that another open or close has overtaken, changes nothing.
The segments fill the byte stream. -/
theorem in_progress_calls_linearize {es' : List (Event CallId Choice Env)}
    (hsupposed : S.Supposed (es ++ es')) (hrun : run S.machine.step { world := {} } es = some c)
    (hrun' : run S.machine.step c es' = some c') :
    (S.events es).length ≤ es.length ∧ S.events es <+: S.events (es ++ es') ∧
      (StreamHistory.after (S.source 0) (S.events es)).client = c.world.view ∧
      (StreamHistory.after (S.source 0) (S.events (es ++ es'))).client = c'.world.view ∧
      (∀ e c'', S.machine.step c' e = some c'' → eventOf c' e = none →
        c''.world.view = c'.world.view) ∧
      c'.world.stream.toInProgressRecordingStreamState.Filled := by
  have hwhole : run S.machine.step { world := {} } (es ++ es') = some c' :=
    run_append_eq_some_iff.mpr ⟨c, hrun, hrun'⟩
  have hholds : S.Holds c' := holds_of_run hsupposed hwhole
  refine ⟨length_labels_le _ _ _, ?_, after_events (hsupposed.append hrun).1 hrun,
    after_events hsupposed hwhole, fun e c'' hstep hnone => ?_, hholds.inv.filled⟩
  · rw [Setting.events, Setting.events, labels_append hrun]
    exact List.prefix_append _ _
  · have hnothing := acts_of_step hholds hstep
    rwa [hnone] at hnothing

/-- One recording, with segments of three bytes; a read, a length and a close come while
other calls are under way. -/
def busySetting : Setting where
  content _ _ := [7, 8, 9]
  server :=
    { config := { useHttps := false, host := ascii "tv", port := 9191, no_nul := by decide }
      arithmetic := exampleSource.arithmetic
      shortRequestTimeoutMs := 5000 }
  calls
    | 0 => .open 7 0
    | 2 | 4 => .length
    | 3 => .close
    | _ => .read 2

/-- What the server answers, with a playlist. -/
def busyChoice (playlist : String) : Choice where
  playlist := .fetched (ascii playlist)
  sizes _ := 3
  chunks := [[7, 8, 9]]

/-- Some steps of one call. -/
def busySteps (t n : Nat) : List (Event CallId Choice Env) :=
  List.replicate n (.steps t (busyChoice "#EXTINF:4,\na.ts\n#EXTINF:4,\nb.ts\n"))

/-- The steps of the open, which finds one segment. -/
def busyOpen : List (Event CallId Choice Env) :=
  .begins 0 :: List.replicate 20 (.steps 0 (busyChoice "#EXTINF:4,\na.ts\n"))

/-- A read has its bytes while the refresh of a length is under way, which finds another
segment. -/
def busyRead : List (Event CallId Choice Env) :=
  busyOpen ++ [.world (.tick 20000000000), .begins 2, .begins 1] ++ busySteps 2 8 ++
    busySteps 1 5 ++ busySteps 2 4

/-- Both end; then a close comes before the end of another length's refresh. -/
def busyClose : List (Event CallId Choice Env) :=
  busySteps 1 2 ++ busySteps 2 2 ++ [.world (.tick 20000000000), .begins 4, .begins 3] ++
    busySteps 4 11 ++ busySteps 3 5

theorem supposed_busy : busySetting.Supposed (busyRead ++ busyClose) := by
  unfold Setting.Supposed
  decide +kernel

theorem in_progress_calls_linearize_busy :
    ∃ c c' c'', run busySetting.machine.step { world := {} } busyRead = some c ∧
      run busySetting.machine.step c busyClose = some c' ∧
      busySetting.machine.step c' (.steps 4 (busyChoice "")) = some c'' ∧
      c.world.stream.totalBytes = 6 ∧ (busySetting.events busyRead).length = 4 ∧
      (busySetting.events (busyRead ++ busyClose)).length = 5 ∧
      (StreamHistory.after (busySetting.source 0) (busySetting.events busyRead)).client =
        c.world.view ∧
      (StreamHistory.after (busySetting.source 0)
        (busySetting.events (busyRead ++ busyClose))).client = c'.world.view ∧
      c''.world.view = c'.world.view := by
  have hsome : (run busySetting.machine.step { world := {} } busyRead).isSome := by
    decide +kernel
  have hsome' : (run busySetting.machine.step (Option.get _ hsome) busyClose).isSome := by
    decide +kernel +revert
  have hsome'' : (busySetting.machine.step (Option.get _ hsome')
      (.steps 4 (busyChoice ""))).isSome := by
    decide +kernel +revert
  have htotal : (Option.get _ hsome).world.stream.totalBytes = 6 := by decide +kernel +revert
  have hnone : (eventOf (Option.get _ hsome') (.steps 4 (busyChoice ""))).isNone := by
    decide +kernel +revert
  have hfour : (busySetting.events busyRead).length = 4 := by decide +kernel
  have hfive : (busySetting.events (busyRead ++ busyClose)).length = 5 := by decide +kernel
  obtain ⟨-, -, hview, hview', hnothing, -⟩ := in_progress_calls_linearize supposed_busy
    (Option.some_get hsome).symm (Option.some_get hsome').symm
  exact ⟨_, _, _, (Option.some_get hsome).symm, (Option.some_get hsome').symm,
    (Option.some_get hsome'').symm, htotal, hfour, hfive, hview, hview',
    hnothing _ _ (Option.some_get hsome'').symm (Option.isNone_iff_eq_none.mp hnone)⟩

/-! ## what reads hand back -/

/-- **Reads hand back what the segments hold.** Whatever the other calls do meanwhile,
what a read hands back is what the recording has, in one session, where the stream
was then; and what is handed back between two changes of the position is one stretch
of the recording, with no gap and nothing twice. -/
theorem in_progress_reads_faithful (hsupposed : S.Supposed es)
    (hrun : run S.machine.step { world := {} } es = some c) :
    (∀ t result bytes, (t, result, bytes) ∈ c.world.answers →
      (result = bytes.length ∧ ∃ r ∈ c.world.record :: c.world.past, ∃ before after,
        r.moves = before ++ .deliver t bytes :: after ∧
          Shows (r.byteAt S.content) (endOf 0 before) bytes) ∨
      bytes = [] ∧ result ≤ 0) ∧
    ∀ r ∈ c.world.record :: c.world.past, ∀ before moves after,
      r.moves = before ++ moves ++ after → Straight moves →
        Shows (r.byteAt S.content) (endOf 0 before) (delivered moves) := by
  have hinv : Inv S c.world := (holds_of_run hsupposed hrun).inv
  refine ⟨fun t result bytes hmem => ?_, fun r hr before moves after heq hstraight => ?_⟩
  · refine (hinv.answers _ hmem).imp_left fun hgiven => ⟨hgiven.1, ?_⟩
    obtain ⟨r, hr, hdelivered⟩ := Client.mem_deliveriesTo_iff.mp hgiven.2
    exact ⟨r, hr, ReadLog.Faithful.delivery (hinv.faithful r hr) hdelivered⟩
  · have hfaithful := hinv.faithful r hr
    unfold Record.Faithful at hfaithful
    rw [heq] at hfaithful
    exact hfaithful.stretch_within hstraight

theorem in_progress_reads_faithful_busy :
    ∃ c, run busySetting.machine.step { world := {} } (busyRead ++ busyClose) = some c ∧
      (1, 2, [7, 8]) ∈ c.world.answers ∧ ∃ r ∈ c.world.record :: c.world.past, ∃ before after,
        r.moves = before ++ .deliver 1 [7, 8] :: after ∧
          Shows (r.byteAt busySetting.content) (endOf 0 before) [7, 8] := by
  have hsome : (run busySetting.machine.step { world := {} } (busyRead ++ busyClose)).isSome := by
    decide +kernel
  have hmem : (1, 2, [7, 8]) ∈ (Option.get _ hsome).world.answers := by decide +kernel +revert
  have hfaithful := in_progress_reads_faithful supposed_busy (Option.some_get hsome).symm
  refine ⟨_, (Option.some_get hsome).symm, hmem, ?_⟩
  exact ((hfaithful.1 1 2 [7, 8] hmem).resolve_right (by simp)).2

/-- **No call fails, and nothing handed over is lost**: a loop goes round no more
often than it may, and a read that has ended has handed back, once, just what was
handed over to it. -/
theorem in_progress_calls_end (hsupposed : S.Supposed es)
    (hrun : run S.machine.step { world := {} } es = some c) (t : CallId) :
    (∀ e, c.left t ≠ some (.raise e)) ∧
    (c.left t = some (.done ()) → Ended t (S.calls t) c.world) := by
  have hholds := holds_of_run hsupposed hrun
  exact ⟨fun e hleft => hholds.safe t _ hleft, fun hleft => (hholds.safe t _ hleft).2.ended⟩

theorem in_progress_calls_end_busy :
    ∃ c, run busySetting.machine.step { world := {} } (busyRead ++ busyClose) = some c ∧
      ∃ result bytes, c.world.answersOf 1 = [(1, result, bytes)] ∧
        HandsBack (c.world.deliveriesTo 1) result bytes := by
  have hsome : (run busySetting.machine.step { world := {} } (busyRead ++ busyClose)).isSome := by
    decide +kernel
  have hend := in_progress_calls_end supposed_busy (Option.some_get hsome).symm 1
  exact ⟨_, (Option.some_get hsome).symm, hend.2 rfl⟩

/-! ## no two calls wait for each other -/

/-- A command that has to wait. -/
def Blocked (c : Client) : Cmd → Prop
  | .lockCurl => c.curlOwner.isSome = true
  | .lockRefresh => c.refreshOwner.isSome = true
  | .enter => c.switching.isSome = true
  | _ => False

/-- An open or a close waits for one that may wait for a mutex, whose owner does not
wait. -/
def rank : Cmd → Nat
  | .enter => 2
  | .lockCurl | .lockRefresh => 1
  | _ => 0

/-- Every other command goes through at once. -/
theorem exec_isSome {server : Server} {w : Client} {cmd : Cmd} (h : ¬ Blocked w cmd)
    (choice : Choice) : ∃ w' r, w.exec server t cmd choice = some (w', r) := by
  cases cmd
  case lockCurl | lockRefresh | enter => exact ⟨_, _, if_neg h⟩
  case tryLockRefresh | withoutPlaylist | beginProbes | mergeProbed | beginSeek =>
    simp only [Client.exec]
    split <;> exact ⟨_, _, rfl⟩
  all_goals exact ⟨_, _, rfl⟩

/-- A call that holds a mutex, or is opening or closing a stream, is under way. -/
theorem underway_of_holds (hholds : S.Holds c) (h : c.world.curlOwner = some t ∨
    c.world.refreshOwner = some t ∨ c.world.switching = some t) :
    ∃ cmd next, c.left t = some (.call cmd next) := by
  have hnot : ∀ {K : Client → Prop}, Free t K c.world → c.world.switching ≠ some t → False := by
    intro K hfree hswitching
    rcases h with h | h | h
    · simp [hfree.1.curl] at h
    · simp [hfree.1.refresh] at h
    · exact hswitching h
  cases hleft : c.left t with
  | none =>
      have hfree := hholds.idle t hleft
      exact (hnot hfree hfree.2.switching).elim
  | some p =>
      cases p with
      | done a =>
          have hfree : Free t (Rests t (S.calls t)) c.world := hholds.safe t _ hleft
          exact (hnot hfree hfree.2.switching).elim
      | raise e => exact (hholds.safe t _ hleft).elim
      | call cmd next => exact ⟨cmd, next, rfl⟩

/-- A call that holds a mutex waits for nothing. -/
theorem rank_of_owner {cmd : Cmd} (hpromise : Promise S t c.world cmd)
    (h : c.world.curlOwner = some t ∨ c.world.refreshOwner = some t) : rank cmd = 0 := by
  cases cmd
  case lockCurl | lockRefresh => exact (h.elim hpromise.1 hpromise.2).elim
  case enter => exact (h.elim hpromise.1 hpromise.2.1).elim
  all_goals rfl

/-- A call that is opening or closing a stream waits for a mutex at most. -/
theorem rank_of_switching {cmd : Cmd} (hpromise : Promise S t c.world cmd)
    (h : c.world.switching = some t) : rank cmd < 2 := by
  cases cmd
  case enter => exact absurd h hpromise.2.2
  case lockCurl | lockRefresh => exact Nat.one_lt_two
  all_goals exact Nat.zero_lt_two

/-- **No deadlock**: while a call is under way, some call can take its next step. -/
theorem in_progress_calls_progress {cmd : Cmd} {next : Except Failure cmd.Answer → Prog Unit}
    (hsupposed : S.Supposed es) (hrun : run S.machine.step { world := {} } es = some c)
    (hleft : c.left t = some (.call cmd next)) :
    ∃ t', ∀ choice, ∃ c', S.machine.step c (.steps t' choice) = some c' := by
  have hholds := holds_of_run hsupposed hrun
  refine Machine.progress rank (fun t cmd next hleft => ?_) hleft
  by_cases hblocked : Blocked c.world cmd
  · refine .inr ?_
    have hmutex : ∀ {owner : Option CallId}, owner.isSome = true →
        owner = c.world.curlOwner ∨ owner = c.world.refreshOwner →
        ∃ t' cmd' next', c.left t' = some (.call cmd' next') ∧ rank cmd' < 1 := by
      intro owner hsome howner
      obtain ⟨t', rfl⟩ := Option.isSome_iff_exists.mp hsome
      have howns := howner.imp Eq.symm Eq.symm
      obtain ⟨cmd', next', hleft'⟩ := underway_of_holds hholds (howns.imp_right .inl)
      have hlowest := rank_of_owner (hholds.promise hleft') howns
      exact ⟨t', cmd', next', hleft', by omega⟩
    cases cmd
    case lockCurl => exact hmutex hblocked (.inl rfl)
    case lockRefresh => exact hmutex hblocked (.inr rfl)
    case enter =>
      obtain ⟨t', hswitching⟩ := Option.isSome_iff_exists.mp hblocked
      obtain ⟨cmd', next', hleft'⟩ := underway_of_holds hholds (.inr (.inr hswitching))
      exact ⟨t', cmd', next', hleft', rank_of_switching (hholds.promise hleft') hswitching⟩
    all_goals exact hblocked.elim
  · exact .inl (Machine.enabled_of_exec hleft (exec_isSome hblocked))

/-- A read waits for the handle, which another read has. -/
def busyWait : List (Event CallId Choice Env) :=
  busyOpen ++ [.begins 1, .begins 5] ++ busySteps 1 3 ++ busySteps 5 1

theorem in_progress_calls_progress_busy :
    ∃ c, run busySetting.machine.step { world := {} } busyWait = some c ∧
      Blocked c.world .lockCurl ∧
      ∃ t, ∀ choice, ∃ c', busySetting.machine.step c (.steps t choice) = some c' := by
  have hsome : (run busySetting.machine.step { world := {} } busyWait).isSome := by
    decide +kernel
  have hblocked : (Option.get _ hsome).world.curlOwner.isSome = true := by
    decide +kernel +revert
  have hsupposed : busySetting.Supposed busyWait := by
    unfold Setting.Supposed
    decide +kernel
  have hleft : (Option.get _ hsome).left 5 = some (.call .lockCurl _) := rfl
  exact ⟨_, (Option.some_get hsome).symm, hblocked,
    in_progress_calls_progress hsupposed (Option.some_get hsome).symm hleft⟩

end RecordingClient

end DispatcharrPvr
