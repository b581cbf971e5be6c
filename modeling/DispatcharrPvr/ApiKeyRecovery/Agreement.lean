import DispatcharrPvr.ApiKeyRecovery
import Mathlib.Data.List.Induction

/-!
# ApiKeyRecovery.Agreement

Any number of clients recovering the key of one account, their requests served
in any order and failing in any way.  A client in `generating` has an own
lookup behind it that found no key, and a client whose last read reported a
key holds it until its next lookup.
-/

namespace DispatcharrPvr

/-! ## what the answers decide -/

/-- A reported key is not empty. -/
theorem LookupReply.Reports.ne_empty {reply : LookupReply} {key : String} (h : reply.Reports key) :
    key ≠ "" := by
  unfold Reports at h
  cases reply with
  | loginFailed => simp [lookup] at h
  | failed httpStatus =>
      simp only [lookup, classifyApiKeyLookupFailure, ServerApiKeyLookup.mk.injEq] at h
      split at h <;> simp at h
  | answered response =>
      rintro rfl
      simp only [lookup, parseApiKeyListResponse] at h
      split at h
      · simp at h
      · simp at h
      · next value _ =>
          split at h
          · simp at h
          · next hblank =>
              simp only [ServerApiKeyLookup.mk.injEq, true_and] at h
              rw [h] at hblank
              simp at hblank
      · simp at h

theorem decide_of_reports {reply : LookupReply} {key : String} (h : reply.Reports key) :
    decideApiKeyRecovery reply.lookup = .useServerKey := by
  have hne := h.ne_empty
  unfold LookupReply.Reports at h
  simp [decideApiKeyRecovery, h, hne]

theorem decide_of_transient {reply : LookupReply} (h : reply.Transient) :
    decideApiKeyRecovery reply.lookup = .fail := by
  cases reply with
  | loginFailed => rfl
  | failed httpStatus =>
      have hstate : ¬ ((httpStatus ≥ 400 ∧ httpStatus < 500) ∧
          ¬ (httpStatus = 408 ∨ httpStatus = 429)) := by
        simp only [LookupReply.Transient] at h
        omega
      simp only [LookupReply.lookup, classifyApiKeyLookupFailure, decideApiKeyRecovery, if_neg hstate]
  | answered response => exact absurd h id

/-- A generate is called for only by an answer without a key. -/
theorem noKey_of_decide {reply : LookupReply}
    (h : decideApiKeyRecovery reply.lookup = .generate) : reply.NoKey := by
  cases reply with
  | loginFailed => simp [LookupReply.lookup, decideApiKeyRecovery] at h
  | failed httpStatus =>
      by_cases hstate : (httpStatus ≥ 400 ∧ httpStatus < 500) ∧
          ¬ (httpStatus = 408 ∨ httpStatus = 429)
      · simp only [LookupReply.NoKey]
        omega
      · simp only [LookupReply.lookup, classifyApiKeyLookupFailure, decideApiKeyRecovery,
          if_neg hstate] at h
        contradiction
  | answered response =>
      intro value hvalue
      simp only [LookupReply.lookup, parseApiKeyListResponse, hvalue] at h
      cases hblank : value.toList.all isSpace with
      | true => rfl
      | false =>
          have hne : value ≠ "" := by
            rintro rfl
            simp at hblank
          simp [hblank, decideApiKeyRecovery, hne] at h

/-! ## one request -/

namespace ApiKeyEvent

variable {Client : Type}

/-- The client whose request it is. -/
def client : ApiKeyEvent Client → Client
  | .lookup client _ => client
  | .generate client _ _ => client
  | .verify client _ => client

/-- The key a request leaves on the server, if it sets one. -/
def performed : ApiKeyEvent Client → Option String
  | .generate _ performed _ => performed
  | _ => none

/-- A lookup of the client. -/
def LooksUp (event : ApiKeyEvent Client) (client : Client) : Prop :=
  ∃ reply, event = .lookup client reply

/-- A read of the account's key, by the lookup or the verification. -/
def Reads (event : ApiKeyEvent Client) (client : Client) (reply : LookupReply) : Prop :=
  event = .lookup client reply ∨ event = .verify client reply

/-- A generate of the client. -/
def Generates (event : ApiKeyEvent Client) (client : Client) : Prop :=
  ∃ performed reply, event = .generate client performed reply

end ApiKeyEvent

namespace ApiKeyState

variable {Client : Type} [DecidableEq Client]

@[simp] theorem setClient_serverKey (s : ApiKeyState Client) (client : Client)
    (phase : RecoveryPhase) (held : String) :
    (s.setClient client phase held).serverKey = s.serverKey := rfl

@[simp] theorem setClient_phase_self (s : ApiKeyState Client) (client : Client)
    (phase : RecoveryPhase) (held : String) :
    (s.setClient client phase held).phase client = phase := by
  simp [setClient]

@[simp] theorem setClient_held_self (s : ApiKeyState Client) (client : Client)
    (phase : RecoveryPhase) (held : String) :
    (s.setClient client phase held).held client = held := by
  simp [setClient]

/-- Everything a request can do: the client's own part of the state changes,
and the server's key when a generate is performed. -/
theorem step_eq_some {s s' : ApiKeyState Client} {event : ApiKeyEvent Client}
    (h : s.step event = some s') :
    s'.serverKey = event.performed.or s.serverKey ∧
      ∀ c, c ≠ event.client → s'.phase c = s.phase c ∧ s'.held c = s.held c := by
  cases event with
  | lookup client reply =>
      simp only [step, Option.ite_none_right_eq_some, Option.some.injEq] at h
      obtain ⟨-, rfl⟩ := h
      unfold afterLookup
      split <;> simp_all [setClient, ApiKeyEvent.performed, ApiKeyEvent.client]
  | generate client performed reply =>
      simp only [step, Option.ite_none_right_eq_some, Option.some.injEq] at h
      obtain ⟨-, rfl⟩ := h
      simp only [afterGenerate]
      split <;> simp_all [setClient, ApiKeyEvent.performed, ApiKeyEvent.client]
  | verify client reply =>
      simp only [step] at h
      split at h
      · simp only [Option.ite_none_right_eq_some, Option.some.injEq] at h
        obtain ⟨-, rfl⟩ := h
        simp_all [afterVerify, setClient, ApiKeyEvent.performed, ApiKeyEvent.client]
      · contradiction

/-- An enabled lookup finds its client idle, and its answer is the server's. -/
theorem step_lookup {s s' : ApiKeyState Client} {client : Client} {reply : LookupReply}
    (h : s.step (.lookup client reply) = some s') :
    s.phase client = .idle ∧ s.Honest reply ∧ s' = s.afterLookup client reply.lookup := by
  simp only [step, Option.ite_none_right_eq_some, Option.some.injEq] at h
  exact ⟨h.1.1, h.1.2, h.2.symm⟩

theorem step_generate {s s' : ApiKeyState Client} {client : Client} {performed : Option String}
    {reply : GenerateReply} (h : s.step (.generate client performed reply) = some s') :
    s.phase client = .generating ∧ s' = s.afterGenerate client performed reply.key := by
  simp only [step, Option.ite_none_right_eq_some, Option.some.injEq] at h
  exact ⟨h.1.1, h.2.symm⟩

theorem step_verify {s s' : ApiKeyState Client} {client : Client} {reply : LookupReply}
    (h : s.step (.verify client reply) = some s') :
    ∃ generatedKey, s.phase client = .verifying generatedKey ∧ s.Honest reply ∧
      s' = s.afterVerify client generatedKey reply.lookup := by
  simp only [step] at h
  split at h
  · next generatedKey hphase =>
      simp only [Option.ite_none_right_eq_some, Option.some.injEq] at h
      exact ⟨generatedKey, hphase, h.1, h.2.symm⟩
  · contradiction

/-- A request is of a client that is idle only when it is a lookup. -/
theorem looksUp_of_idle {s s' : ApiKeyState Client} {event : ApiKeyEvent Client}
    (h : s.step event = some s') (hidle : s.phase event.client = .idle) :
    event.LooksUp event.client := by
  cases event with
  | lookup client reply => exact ⟨reply, rfl⟩
  | generate client performed reply =>
      obtain ⟨hphase, -⟩ := step_generate h
      rw [ApiKeyEvent.client, hphase] at hidle
      contradiction
  | verify client reply =>
      obtain ⟨generatedKey, hphase, -⟩ := step_verify h
      rw [ApiKeyEvent.client, hphase] at hidle
      contradiction

/-! ## whole runs -/

/-- A client that has generated a key holds it while it verifies it. -/
def HoldsGenerated (s : ApiKeyState Client) : Prop :=
  ∀ client key, s.phase client = .verifying key → s.held client = key

theorem HoldsGenerated.next {s s' : ApiKeyState Client} {event : ApiKeyEvent Client}
    (hI : s.HoldsGenerated) (h : s.step event = some s') : s'.HoldsGenerated := by
  intro c key hphase
  by_cases hc : c = event.client
  · subst hc
    cases event with
    | lookup client reply =>
        obtain ⟨-, -, rfl⟩ := step_lookup h
        revert hphase
        simp only [ApiKeyEvent.client, afterLookup]
        split <;> simp
    | generate client performed reply =>
        obtain ⟨-, rfl⟩ := step_generate h
        revert hphase
        simp only [ApiKeyEvent.client, afterGenerate]
        split <;> simp
    | verify client reply =>
        obtain ⟨generatedKey, -, -, rfl⟩ := step_verify h
        revert hphase
        simp [ApiKeyEvent.client, afterVerify]
  · obtain ⟨-, hother⟩ := step_eq_some h
    obtain ⟨hsame, hheld⟩ := hother c hc
    rw [hheld]
    exact hI c key (hsame ▸ hphase)

/-- The requests of an idle client start with a lookup. -/
theorem run_of_idle {s s' : ApiKeyState Client} {client : Client}
    {events : List (ApiKeyEvent Client)} (hrun : Runs.run step s events = some s')
    (hidle : s.phase client = .idle) (hlookup : ∀ event ∈ events, ¬ event.LooksUp client) :
    (∀ event ∈ events, event.client ≠ client) ∧ s'.held client = s.held client := by
  induction events generalizing s with
  | nil =>
      simp only [Runs.run_nil, Option.some.injEq] at hrun
      simp [hrun]
  | cons event events ih =>
      obtain ⟨m, hstep, hrun⟩ := Runs.run_cons_eq_some_iff.mp hrun
      have hother : client ≠ event.client := by
        rintro rfl
        exact hlookup event List.mem_cons_self (looksUp_of_idle hstep hidle)
      obtain ⟨hphase, hheld⟩ := (step_eq_some hstep).2 client hother
      obtain ⟨hevents, hkept⟩ := ih hrun (hphase.trans hidle)
        fun e he => hlookup e (List.mem_cons_of_mem _ he)
      refine ⟨?_, hkept.trans hheld⟩
      intro e he
      rcases List.mem_cons.mp he with rfl | he
      · exact hother.symm
      · exact hevents e he

/-- Requests that perform no generate leave the server's key alone. -/
theorem serverKey_run {s s' : ApiKeyState Client} {events : List (ApiKeyEvent Client)}
    (hrun : Runs.run step s events = some s') (hnone : ∀ event ∈ events, event.performed = none) :
    s'.serverKey = s.serverKey := by
  induction events generalizing s with
  | nil =>
      simp only [Runs.run_nil, Option.some.injEq] at hrun
      rw [hrun]
  | cons event events ih =>
      obtain ⟨m, hstep, hrun⟩ := Runs.run_cons_eq_some_iff.mp hrun
      have hkey := (step_eq_some hstep).1
      rw [hnone event List.mem_cons_self, Option.none_or] at hkey
      exact (ih hrun fun e he => hnone e (List.mem_cons_of_mem _ he)).trans hkey

/-- A client about to generate has a lookup behind it that found no key, and
has made no request since. -/
theorem noKey_of_generating {serverKey : Option String} {held : Client → String}
    {events : List (ApiKeyEvent Client)} {s : ApiKeyState Client} {client : Client}
    (hrun : Runs.run step (start serverKey held) events = some s)
    (hphase : s.phase client = .generating) :
    ∃ earlier reply since, events = earlier ++ .lookup client reply :: since ∧ reply.NoKey ∧
      ∀ event ∈ since, event.client ≠ client := by
  induction events using List.reverseRecOn generalizing s with
  | nil =>
      simp only [Runs.run_nil, Option.some.injEq] at hrun
      subst hrun
      simp [start] at hphase
  | append_singleton events event ih =>
      obtain ⟨m, hbefore, hstep⟩ := Runs.run_concat_eq_some_iff.mp hrun
      by_cases hc : client = event.client
      · subst hc
        cases event with
        | lookup client reply =>
            obtain ⟨-, -, rfl⟩ := step_lookup hstep
            refine ⟨events, reply, [], rfl, noKey_of_decide ?_, by simp⟩
            revert hphase
            simp only [ApiKeyEvent.client, afterLookup]
            split <;> simp_all
        | generate client performed reply =>
            obtain ⟨-, rfl⟩ := step_generate hstep
            revert hphase
            simp only [ApiKeyEvent.client, afterGenerate]
            split <;> simp
        | verify client reply =>
            obtain ⟨generatedKey, -, -, rfl⟩ := step_verify hstep
            revert hphase
            simp [ApiKeyEvent.client, afterVerify]
      · have hsame := ((step_eq_some hstep).2 client hc).1
        obtain ⟨earlier, reply, since, rfl, hreply, hsince⟩ := ih hbefore (hsame ▸ hphase)
        refine ⟨earlier, reply, since ++ [event], by simp, hreply, ?_⟩
        intro e he
        rcases List.mem_append.mp he with he | he
        · exact hsince e he
        · obtain rfl := List.mem_singleton.mp he
          exact Ne.symm hc

/-- A client whose lookup reported a key, or failed for now, is idle again. -/
theorem idle_of_lookup {s s' : ApiKeyState Client} {client : Client} {reply : LookupReply}
    (h : s.step (.lookup client reply) = some s')
    (hreply : (∃ key, reply.Reports key) ∨ reply.Transient) : s'.phase client = .idle := by
  obtain ⟨-, -, rfl⟩ := step_lookup h
  rcases hreply with ⟨key, hreports⟩ | htransient
  · simp [afterLookup, decide_of_reports hreports]
  · simp [afterLookup, decide_of_transient htransient]

/-- After a read that reported a key its client is idle and holds that key,
which is the server's. -/
theorem held_of_reads {s s' : ApiKeyState Client} {client : Client} {reply : LookupReply}
    {event : ApiKeyEvent Client} {key : String} (hI : s.HoldsGenerated)
    (hreads : event.Reads client reply) (hreports : reply.Reports key)
    (h : s.step event = some s') :
    s'.phase client = .idle ∧ s'.held client = key ∧ s'.serverKey = some key := by
  have hlookup : reply.lookup = { state := .present, key } := hreports
  rcases hreads with rfl | rfl
  · obtain ⟨-, hhonest, rfl⟩ := step_lookup h
    have hserver := hhonest (by rw [hlookup])
    have hafter : s.afterLookup client reply.lookup =
        s.setClient client .idle reply.lookup.key := by
      simp [afterLookup, decide_of_reports hreports]
    rw [hafter]
    exact ⟨by simp, by simp [hlookup], by simpa [hlookup] using hserver⟩
  · obtain ⟨generatedKey, hphase, hhonest, rfl⟩ := step_verify h
    have hserver := hhonest (by rw [hlookup])
    have hheld := hI client generatedKey hphase
    refine ⟨by simp [afterVerify], ?_, by simp [afterVerify, hserver, hlookup]⟩
    by_cases hsame : key = generatedKey
    · simp [afterVerify, reconcileGeneratedApiKey, hlookup, hsame, hheld]
    · simp [afterVerify, reconcileGeneratedApiKey, hlookup, hsame, hreports.ne_empty]

end ApiKeyState

open ApiKeyState in
/-- Whatever the clients do, in any order: only a performed generate changes
the server's key; a client generates only after a lookup of its own that found
no key; after one that reported a key or failed for now it generates nothing
before it looks up again; and a client whose last read reported a key, served
after the last generate, holds the server's key. -/
theorem api_key_recovery {Client : Type} [DecidableEq Client] (serverKey : Option String)
    (held : Client → String) (events : List (ApiKeyEvent Client)) (s : ApiKeyState Client)
    (hrun : Runs.run step (start serverKey held) events = some s) :
    (∀ before event after m m', events = before ++ event :: after →
      Runs.run step (start serverKey held) before = some m → m.step event = some m' →
      m'.serverKey ≠ m.serverKey → ∃ client, event.Generates client) ∧
    (∀ before event after client, events = before ++ event :: after → event.Generates client →
      ∃ earlier reply since, before = earlier ++ .lookup client reply :: since ∧ reply.NoKey ∧
        ∀ e ∈ since, e.client ≠ client) ∧
    (∀ before client reply during after, events = before ++ .lookup client reply :: during ++ after →
      (∃ key, reply.Reports key) ∨ reply.Transient → (∀ e ∈ during, ¬ e.LooksUp client) →
      ∀ e ∈ during, ¬ e.Generates client) ∧
    (∀ before event after client reply key, events = before ++ event :: after →
      event.Reads client reply → reply.Reports key →
      (∀ e ∈ after, ∀ reply', ¬ e.Reads client reply') → (∀ e ∈ after, e.performed = none) →
      s.serverKey = some (s.held client)) := by
  refine ⟨?_, ?_, ?_, ?_⟩
  · intro before event after m m' _ _ hstep hchanged
    have hkey := (step_eq_some hstep).1
    cases event with
    | lookup client reply => exact absurd hkey hchanged
    | generate client performed reply => exact ⟨client, performed, reply, rfl⟩
    | verify client reply => exact absurd hkey hchanged
  · rintro before event after client rfl ⟨performed, reply, rfl⟩
    obtain ⟨m, hbefore, hrun⟩ := Runs.run_append_eq_some_iff.mp hrun
    obtain ⟨m', hstep, -⟩ := Runs.run_cons_eq_some_iff.mp hrun
    exact noKey_of_generating hbefore (step_generate hstep).1
  · rintro before client reply during after rfl hreply hlookup e he ⟨performed, reply', rfl⟩
    obtain ⟨k, hrun, -⟩ := Runs.run_append_eq_some_iff.mp hrun
    obtain ⟨m, -, hrun⟩ := Runs.run_append_eq_some_iff.mp hrun
    obtain ⟨m', hstep, hrun⟩ := Runs.run_cons_eq_some_iff.mp hrun
    have hidle := idle_of_lookup hstep hreply
    exact (run_of_idle hrun hidle hlookup).1 _ he rfl
  · rintro before event after client reply key rfl hreads hreports hnoRead hnone
    obtain ⟨m, hbefore, hrun⟩ := Runs.run_append_eq_some_iff.mp hrun
    obtain ⟨m', hstep, hrun⟩ := Runs.run_cons_eq_some_iff.mp hrun
    have hI : m.HoldsGenerated := by
      refine Runs.invariant (fun hI h => hI.next h) ?_ hbefore
      intro c k hphase
      simp [start] at hphase
    obtain ⟨hidle, hheld, hserver⟩ := held_of_reads hI hreads hreports hstep
    have hlookup : ∀ e ∈ after, ¬ e.LooksUp client := by
      rintro e he ⟨reply', rfl⟩
      exact hnoRead _ he reply' (.inl rfl)
    have hkept := (run_of_idle hrun hidle hlookup).2
    rw [serverKey_run hrun hnone, hserver, hkept, hheld]

/-- Two clients that both find no key: the one that generated first adopts the
other's. -/
theorem api_key_recovery_collision :
    let noKey : LookupReply := .answered (.object [("key", .null)])
    let made (key : String) : Json := .object [("key", .string key)]
    let events : List (ApiKeyEvent Bool) :=
      [.lookup true noKey, .lookup false noKey, .generate true (some "a") (.answered (made "a")),
        .generate false (some "b") (.answered (made "b")), .verify true (.answered (made "b"))]
    ∃ s, Runs.run ApiKeyState.step (ApiKeyState.start none fun _ => "") events = some s ∧
      s.serverKey = some (s.held true) := by
  intro noKey made events
  refine ⟨_, rfl, ?_⟩
  have hrecovery := api_key_recovery none (fun _ => "") events _ rfl
  exact hrecovery.2.2.2 (events.take 4) (.verify true (.answered (made "b"))) [] true
    (.answered (made "b")) "b" rfl (.inr rfl) (by decide) (by simp) (by simp)

end DispatcharrPvr
