import DispatcharrPvr.LiveTimeshift.Opens

/-!
# LiveTimeshift.Runs

What holds of the calls on a live timeshift, whatever the interleaving of their
steps: reads hand back just what the plugin's files hold, a stream is given up
only by its signs, no call fails, and no two of them wait for each other.
-/

namespace DispatcharrPvr

namespace LiveClient

open Interleaving Interleaving.Program Interleaving.Discipline LiveStream ReadLog Runs

variable {S : Setting} {t : CallId}

/-! ## whole calls -/

/-- What a call that has ended has handed back, and what was handed over to it. -/
def Ended (t : CallId) : Call → Client → Prop
  | .read _, c => ∃ result bytes, c.answersOf t = [(t, result, bytes)] ∧
      HandsBack (c.deliveriesTo t) result bytes
  | _, c => c.answersOf t = [] ∧ c.deliveriesTo t = []

/-- The same, with nothing left to be done. -/
structure Rests (t : CallId) (call : Call) (c : Client) : Prop where
  switching : Switching t none c
  ended : Ended t call c

theorem lasting_rests (call : Call) : Lasting t (Rests t call) := by
  rintro c c' ⟨hswitching, hended⟩ hsees
  refine ⟨lasting_switching none c c' hswitching hsees, ?_⟩
  cases call <;> simpa only [Ended, hsees.answers, hsees.delivered] using hended

theorem Pending.rests {c : Client} {call : Call} (h : Pending t c) (hcall : ∀ size, call ≠ .read size) :
    Rests t call c := by
  refine ⟨h.switching, ?_⟩
  cases call with
  | read size => exact absurd rfl (hcall size)
  | seek position whence => exact ⟨h.answered, h.delivered⟩
  | length => exact ⟨h.answered, h.delivered⟩
  | «open» channelUuid => exact ⟨h.answered, h.delivered⟩
  | close => exact ⟨h.answered, h.delivered⟩

theorem keeps_answer (result : Int) (bytes : ByteString) (size : Nat) :
    (conduct S).Keeps t (Free t (Ready t result bytes)) (call (.answer result bytes))
      (To fun _ => Free t (Rests t (.read size))) := by
  refine keeps_call lasting_ready.stable (fun c _ hc => hc.2.delivered)
    fun c choice c' a _ hc _ _ hexec => ?_
  obtain ⟨rfl, -⟩ := Prod.mk.inj (Option.some.inj hexec)
  refine ⟨⟨hc.1.curl, hc.1.refresh⟩, hc.2.switching, result, bytes, ?_, hc.2.delivered⟩
  have hnone : List.filter (·.1 == t) c.answers = [] := hc.2.answered
  simp [Client.answersOf, hnone]

/-- **Every call** conducts itself. -/
theorem keeps_program (call : Call) :
    (conduct S).Keeps t (Free t (Pending t)) (call.program S.shortRequestTimeoutMs)
      (To fun _ => Free t (Rests t call)) := by
  have hrests : (∀ size, call ≠ .read size) → ∀ (_ : Unit) c, Free t (Pending t) c →
      Free t (Rests t call) c := fun hcall _ c hc => ⟨hc.1, hc.2.rests hcall⟩
  cases call with
  | read size =>
      exact keeps_then (keeps_readLiveTimeshiftStream size) fun answer => keeps_answer _ _ size
  | seek position whence =>
      exact keeps_then (keeps_seek lasting_pending position whence) fun _ =>
        keeps_done (hrests (by simp) ())
  | length =>
      exact keeps_then (keeps_length lasting_pending) fun _ => keeps_done (hrests (by simp) ())
  | «open» channelUuid =>
      have hopened : ∀ opened, (conduct S).Keeps t (Free t (Turned t true opened opened))
          (LiveClient.call .leave) (To fun _ => Free t (Pending t)) := fun opened =>
        keeps_leave lasting_turned fun c hc =>
          ⟨hc.toTurning, fun _ hopen => hc.placed.trans (hc.isOpen.symm.trans hopen)⟩
      exact keeps_then keeps_enter fun _ => keeps_then (keeps_open channelUuid) fun opened =>
        (hopened opened).post (To.mono (hrests (by simp)))
  | close =>
      have hclosed : (conduct S).Keeps t (Free t (Turned t false false false))
          (LiveClient.call .leave) (To fun _ => Free t (Pending t)) :=
        keeps_leave lasting_turned fun c hc => ⟨hc.toTurning, fun hopening => by cases hopening⟩
      exact keeps_then keeps_enter fun _ => keeps_then keeps_close fun _ =>
        hclosed.post (To.mono (hrests (by simp)))

/-! ## whole runs -/

theorem inv_init (content : Nat → String → ByteString) : Inv content {} where
  held := ⟨[], held_init⟩
  tape := ⟨0, rfl⟩
  suffix := List.suffix_rfl
  position := rfl
  faithful r hr := by
    obtain rfl := List.mem_singleton.mp hr
    exact trivial
  session := rfl
  placed hopen := by cases hopen
  failures := rfl
  firstFailure hsome := absurd rfl hsome
  fatal hfatal := by cases hfatal
  answers a ha := by cases ha

/-- What happens by itself. -/
theorem env_keeps {content : Nat → String → ByteString} {c c' : Client} {e : Env}
    (hinv : Inv content c) (h : c.env e = some c') : Inv content c' ∧ ∀ t, Rely t c c' := by
  cases e with
  | tick elapsed =>
      obtain rfl := Option.some.inj h
      have heffect : Effect content 0 c { c with clock := c.clock + elapsed } := .waits elapsed
      refine ⟨hinv.step heffect, fun t => ?_⟩
      exact { Rely.refl t c with
        clock := by
          show c.clock ≤ c.clock + elapsed
          omega }
  | abort =>
      obtain rfl := Option.some.inj h
      exact ⟨{ hinv with }, fun t => { Rely.refl t c with }⟩

/-- The calls of a setting, each on a thread of its own. -/
abbrev Setting.machine (S : Setting) :
    Machine Client CallId Choice Env Cmd Cmd.Answer Failure :=
  LiveClient.machine S.host S.shortRequestTimeoutMs S.calls

/-- Every step of a run is one that is supposed to happen. -/
def Setting.Supposed (S : Setting) (es : List (Event CallId Choice Env)) : Prop :=
  Meets S.machine.step (Taken fun _ => supposed S.content) { world := {} } es

variable {es : List (Event CallId Choice Env)}
  {c : Config Client CallId Cmd Cmd.Answer Failure}

/-- In every state reached the calls have conducted themselves. -/
theorem holds_of_run (hsupposed : S.Supposed es) (hrun : run S.machine.step { world := {} } es = some c) :
    (conduct S).Holds (fun t => Free t (Pending t))
      (fun t => To fun _ => Free t (Rests t (S.calls t))) c := by
  have hconduct : Meets S.machine.step (conduct S).Supposed { world := {} } es :=
    Meets.mono (fun _ _ h => supposed_of_taken (D := conduct S) (fun _ _ => trivial) h) hsupposed
  refine of_run (fun t => lasting_pending.stable) (fun t r => ?_) (fun t => keeps_program (S.calls t))
    (fun c e c' hinv _ h => env_keeps hinv h) (inv_init S.content)
    (fun t => ⟨⟨by simp, by simp⟩, by simp [Switching], rfl, rfl⟩) hconduct hrun
  cases r with
  | ok a => exact (lasting_rests (S.calls t)).stable
  | error e => exact fun _ _ h _ => h

/-! ## what reads hand back -/

/-- **Reads hand back what the files hold.** Whatever the other calls do meanwhile,
what a read hands back is what the buffer has, in one session, where the stream was
then; and what is handed back between two changes of the position is one stretch of
the buffer, with no gap and nothing twice. -/
theorem live_reads_faithful (hsupposed : S.Supposed es)
    (hrun : run S.machine.step { world := {} } es = some c) :
    (∀ t result bytes, (t, result, bytes) ∈ c.world.answers →
      (result = bytes.length ∧ ∃ r ∈ c.world.record :: c.world.past, ∃ before after,
        r.moves = before ++ .deliver t bytes :: after ∧
          Shows (r.byteAt S.content) (endOf 0 before) bytes) ∨
      bytes = [] ∧ result ≤ 0) ∧
    ∀ r ∈ c.world.record :: c.world.past, ∀ before moves after,
      r.moves = before ++ moves ++ after → Straight moves →
        Shows (r.byteAt S.content) (endOf 0 before) (delivered moves) := by
  have hinv : Inv S.content c.world := (holds_of_run hsupposed hrun).inv
  refine ⟨fun t result bytes hmem => ?_, fun r hr before moves after heq hstraight => ?_⟩
  · refine (hinv.answers _ hmem).imp_left fun hgiven => ⟨hgiven.1, ?_⟩
    obtain ⟨r, hr, hdelivered⟩ := Client.mem_deliveriesTo_iff.mp hgiven.2
    exact ⟨r, hr, ReadLog.Faithful.delivery (hinv.faithful r hr) hdelivered⟩
  · have hfaithful := hinv.faithful r hr
    unfold Record.Faithful at hfaithful
    rw [heq] at hfaithful
    exact hfaithful.stretch_within hstraight

/-- A manifest of some segments of three bytes. -/
def busyManifest (filenames : List String) : Json :=
  .object
    [("success", .boolean true),
      ("result", .object
        [("status", .string "ok"), ("http_port", .numberInteger 9192),
          ("segment_route_prefix", .string "/t/"),
          ("segments", .array (filenames.mapIdx fun i filename =>
            .object
              [("sequence", .numberInteger (i + 1)), ("filename", .string filename),
                ("byte_size", .numberInteger 3), ("duration_ms", .numberInteger 2000)]))])]

/-- A read, a length and a close come while other calls are under way. -/
def busySetting : Setting where
  content _ _ := [7, 8, 9]
  host := []
  shortRequestTimeoutMs := 5000
  calls
    | 0 => .open []
    | 2 => .length
    | 3 => .close
    | _ => .read 2

/-- What the plugin and its file server answer. -/
def busyChoice (filenames : List String) : Choice :=
  { response := some (busyManifest filenames), chunks := [[7, 8]] }

/-- Some steps of one call. -/
def busySteps (t n : Nat) : List (Event CallId Choice Env) :=
  List.replicate n (.steps t (busyChoice ["a.ts", "b.ts"]))

/-- The steps of the open, which finds one segment. -/
def busyOpen : List (Event CallId Choice Env) :=
  .begins 0 :: List.replicate 20 (.steps 0 (busyChoice ["a.ts"]))

/-- A read is under way while a length asks for the manifest, and a close has begun. -/
def busyFetch (choice : Choice) : List (Event CallId Choice Env) :=
  busyOpen ++ [.world (.tick 20000000000), .begins 2, .begins 1, .begins 3] ++ busySteps 2 4 ++
    List.replicate 5 (.steps 1 choice) ++ busySteps 3 2

/-- The length finds another segment, and the read ends. -/
def busyRead : List (Event CallId Choice Env) :=
  busyFetch (busyChoice []) ++ busySteps 2 2 ++ busySteps 1 3

theorem supposed_busy : busySetting.Supposed busyRead := by
  unfold Setting.Supposed
  decide +kernel

theorem live_reads_faithful_busy :
    ∃ c, run busySetting.machine.step { world := {} } busyRead = some c ∧
      c.world.stream.totalBytes = 6 ∧ c.world.switching = some (3, false) ∧
      (1, 2, [7, 8]) ∈ c.world.answers ∧ ∃ r ∈ c.world.record :: c.world.past, ∃ before after,
        r.moves = before ++ .deliver 1 [7, 8] :: after ∧
          Shows (r.byteAt busySetting.content) (endOf 0 before) [7, 8] := by
  have hsome : (run busySetting.machine.step { world := {} } busyRead).isSome := by
    decide +kernel
  have hmem : (1, 2, [7, 8]) ∈ (Option.get _ hsome).world.answers := by decide +kernel +revert
  have htotal : (Option.get _ hsome).world.stream.totalBytes = 6 := by decide +kernel +revert
  have hclosing : (Option.get _ hsome).world.switching = some (3, false) := by
    decide +kernel +revert
  have hfaithful := live_reads_faithful supposed_busy (Option.some_get hsome).symm
  refine ⟨_, (Option.some_get hsome).symm, htotal, hclosing, hmem, ?_⟩
  exact ((hfaithful.1 1 2 [7, 8] hmem).resolve_right (by simp)).2

/-- **No call fails, and nothing handed over is lost**: a loop goes round no more
often than it may, and a read that has ended has handed back, once, just what was
handed over to it. -/
theorem live_calls_end (hsupposed : S.Supposed es)
    (hrun : run S.machine.step { world := {} } es = some c) (t : CallId) :
    (∀ e, c.left t ≠ some (.raise e)) ∧
    (c.left t = some (.done ()) → Ended t (S.calls t) c.world) := by
  have hholds := holds_of_run hsupposed hrun
  exact ⟨fun e hleft => hholds.safe t _ hleft, fun hleft => (hholds.safe t _ hleft).2.ended⟩

theorem live_calls_end_busy :
    ∃ c, run busySetting.machine.step { world := {} } busyRead = some c ∧
      ∃ result bytes, c.world.answersOf 1 = [(1, result, bytes)] ∧
        HandsBack (c.world.deliveriesTo 1) result bytes := by
  have hsome : (run busySetting.machine.step { world := {} } busyRead).isSome := by
    decide +kernel
  have hend := live_calls_end supposed_busy (Option.some_get hsome).symm 1
  exact ⟨_, (Option.some_get hsome).symm, hend.2 rfl⟩

/-- A command that has to wait. -/
def Blocked (c : Client) : Cmd → Prop
  | .lockCurl => c.curlOwner.isSome = true
  | .lockRefresh => c.refreshOwner.isSome = true
  | .enter _ => c.switching.isSome = true
  | _ => False

/-- An open or a close waits for one that may wait for a mutex, whose owner does not
wait. -/
def rank : Cmd → Nat
  | .enter _ => 2
  | .lockCurl | .lockRefresh => 1
  | _ => 0

/-- Every other command goes through at once. -/
theorem exec_isSome {host : ByteString} {w : Client} {cmd : Cmd} (h : ¬ Blocked w cmd)
    (choice : Choice) : ∃ w' r, w.exec host t cmd choice = some (w', r) := by
  cases cmd
  case lockCurl | lockRefresh | enter => exact ⟨_, _, if_neg h⟩
  case tryLockRefresh | mergeManifest | fatalNotice | beginSeek | giveUp =>
    simp only [Client.exec]
    split <;> exact ⟨_, _, rfl⟩
  case beginFetch =>
    simp only [Client.exec]
    split
    · split <;> exact ⟨_, _, rfl⟩
    · exact ⟨_, _, rfl⟩
  case endFetch =>
    simp only [Client.exec]
    split <;> exact ⟨_, _, rfl⟩
  all_goals exact ⟨_, _, rfl⟩

/-- A call that holds a mutex, or is opening or closing a stream, is under way. -/
theorem underway_of_holds (hholds : (conduct S).Holds (fun t => Free t (Pending t))
      (fun t => To fun _ => Free t (Rests t (S.calls t))) c)
    (h : c.world.curlOwner = some t ∨ c.world.refreshOwner = some t ∨
      ∃ isOpening, c.world.switching = some (t, isOpening)) :
    ∃ cmd next, c.left t = some (.call cmd next) := by
  have hnot : ∀ {K : Client → Prop}, Free t K c.world → Switching t none c.world → False := by
    intro K hfree hswitching
    rcases h with h | h | ⟨isOpening, h⟩
    · simp [hfree.1.curl] at h
    · simp [hfree.1.refresh] at h
    · simp [hswitching isOpening] at h
  cases hleft : c.left t with
  | none =>
      have hfree := hholds.idle t hleft
      exact (hnot hfree hfree.2.switching).elim
  | some p =>
      cases p with
      | done a =>
          have hfree : Free t (Rests t (S.calls t)) c.world := hholds.safe t _ hleft
          exact (hnot hfree hfree.2.switching).elim
      | raise e => exact (hholds.safe t _ hleft).elim
      | call cmd next => exact ⟨cmd, next, rfl⟩

/-- A call that holds a mutex waits for nothing. -/
theorem rank_of_owner {cmd : Cmd} (hpromise : Promise S.content t c.world cmd)
    (h : c.world.curlOwner = some t ∨ c.world.refreshOwner = some t) : rank cmd = 0 := by
  cases cmd
  case lockCurl | lockRefresh => exact (h.elim hpromise.1 hpromise.2).elim
  case enter => exact (h.elim hpromise.1 hpromise.2.1).elim
  all_goals rfl

/-- A call that is opening or closing a stream waits for a mutex at most. -/
theorem rank_of_switching {cmd : Cmd} {isOpening : Bool}
    (hpromise : Promise S.content t c.world cmd)
    (h : c.world.switching = some (t, isOpening)) : rank cmd < 2 := by
  cases cmd
  case enter => simp [hpromise.2.2 isOpening] at h
  case lockCurl | lockRefresh => exact Nat.one_lt_two
  all_goals exact Nat.zero_lt_two

/-- **No deadlock**: while a call is under way, some call can take its next step. -/
theorem live_calls_progress {cmd : Cmd} {next : Except Failure cmd.Answer → Prog Unit}
    (hsupposed : S.Supposed es)
    (hrun : run S.machine.step { world := {} } es = some c)
    (hleft : c.left t = some (.call cmd next)) :
    ∃ t', ∀ choice, ∃ c', S.machine.step c (.steps t' choice) = some c' := by
  have hholds := holds_of_run hsupposed hrun
  refine Machine.progress rank (fun t cmd next hleft => ?_) hleft
  by_cases hblocked : Blocked c.world cmd
  · refine .inr ?_
    have hmutex : ∀ {owner : Option CallId}, owner.isSome = true →
        owner = c.world.curlOwner ∨ owner = c.world.refreshOwner →
        ∃ t' cmd' next', c.left t' = some (.call cmd' next') ∧ rank cmd' < 1 := by
      intro owner hsome howner
      obtain ⟨t', rfl⟩ := Option.isSome_iff_exists.mp hsome
      have howns := howner.imp Eq.symm Eq.symm
      obtain ⟨cmd', next', hleft'⟩ := underway_of_holds hholds (howns.imp_right .inl)
      have hlowest := rank_of_owner (hholds.promise hleft') howns
      exact ⟨t', cmd', next', hleft', by omega⟩
    cases cmd
    case lockCurl => exact hmutex hblocked (.inl rfl)
    case lockRefresh => exact hmutex hblocked (.inr rfl)
    case enter isOpening =>
      obtain ⟨⟨t', isOpening'⟩, hswitching⟩ := Option.isSome_iff_exists.mp hblocked
      obtain ⟨cmd', next', hleft'⟩ := underway_of_holds hholds (.inr (.inr ⟨isOpening', hswitching⟩))
      exact ⟨t', cmd', next', hleft', rank_of_switching (hholds.promise hleft') hswitching⟩
    all_goals exact hblocked.elim
  · exact .inl (Machine.enabled_of_exec hleft (exec_isSome hblocked))

/-- The close waits for the handle, which the read has. -/
theorem live_calls_progress_busy :
    ∃ c, run busySetting.machine.step { world := {} } (busyFetch (busyChoice [])) = some c ∧
      Blocked c.world .lockCurl ∧
      ∃ t, ∀ choice, ∃ c', busySetting.machine.step c (.steps t choice) = some c' := by
  have hsome : (run busySetting.machine.step { world := {} }
      (busyFetch (busyChoice []))).isSome := by
    decide +kernel
  have hblocked : (Option.get _ hsome).world.curlOwner.isSome = true := by
    decide +kernel +revert
  have hsupposed : busySetting.Supposed (busyFetch (busyChoice [])) := by
    unfold Setting.Supposed
    decide +kernel
  have hleft : (Option.get _ hsome).left 3 = some (.call .lockCurl _) := rfl
  exact ⟨_, (Option.some_get hsome).symm, hblocked,
    live_calls_progress hsupposed (Option.some_get hsome).symm hleft⟩

end LiveClient

end DispatcharrPvr
