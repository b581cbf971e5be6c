import DispatcharrPvr.Lib.Runs

/-!
# Lib.Interleaving

Programs that run concurrently over one shared world, one command at a time.

A `Program` is what an operation does next: it is done, it has raised a failure,
or it calls a command and goes on with the answer.  Any number of threads run
programs; between any two commands of one thread the others, and the world by
itself, may take any number of steps.

A `Discipline` says what each thread may rely on and what it promises of the
commands it calls.  `Keeps` is its triple: from a state that meets `P` the
program calls only what is promised and leaves `Q`, whatever the others do in
between; `Discipline.of_run` carries it over to whole runs.
-/

namespace Interleaving

open Runs

/-! ## programs -/

/-- What is left to do: a command's answer may be a failure. -/
inductive Program (Cmd : Type) (Answer : Cmd → Type) (Failure α : Type) where
  | done (a : α)
  | raise (e : Failure)
  | call (c : Cmd) (next : Except Failure (Answer c) → Program Cmd Answer Failure α)

namespace Program

variable {Cmd : Type} {Answer : Cmd → Type} {Failure α β : Type}

/-- One program, then another with what it came to; a failure goes through. -/
def bind : Program Cmd Answer Failure α → (α → Program Cmd Answer Failure β) →
    Program Cmd Answer Failure β
  | .done a, f => f a
  | .raise e, _ => .raise e
  | .call c next, f => .call c fun r => (next r).bind f

instance : Monad (Program Cmd Answer Failure) where
  pure := .done
  bind := bind

/-- One command. -/
def perform (c : Cmd) : Program Cmd Answer Failure (Answer c) :=
  .call c fun
    | .ok a => .done a
    | .error e => .raise e

/-- `try: … except: …`. -/
def tryExcept : Program Cmd Answer Failure α → (Failure → Program Cmd Answer Failure α) →
    Program Cmd Answer Failure α
  | .done a, _ => .done a
  | .raise e, handler => handler e
  | .call c next, handler => .call c fun r => (next r).tryExcept handler

/-- `try: … finally: …`. -/
def tryFinally : Program Cmd Answer Failure α → Program Cmd Answer Failure Unit →
    Program Cmd Answer Failure α
  | .done a, cleanup => cleanup.bind fun _ => .done a
  | .raise e, cleanup => cleanup.bind fun _ => .raise e
  | .call c next, cleanup => .call c fun r => (next r).tryFinally cleanup

@[simp] theorem pure_eq (a : α) : (pure a : Program Cmd Answer Failure α) = .done a := rfl

@[simp] theorem bind_eq (p : Program Cmd Answer Failure α) (f : α → Program Cmd Answer Failure β) :
    p >>= f = p.bind f := rfl

/-! ### what a program calls -/

/-- Every command it may come to is one of these. -/
def Calls (C : Cmd → Prop) : Program Cmd Answer Failure α → Prop
  | .done _ => True
  | .raise _ => True
  | .call c next => C c ∧ ∀ r, (next r).Calls C

section Calls

variable {C : Cmd → Prop} {p : Program Cmd Answer Failure α}

@[simp] theorem calls_done (a : α) : (.done a : Program Cmd Answer Failure α).Calls C := trivial

@[simp] theorem calls_raise (e : Failure) : (.raise e : Program Cmd Answer Failure α).Calls C :=
  trivial

@[simp] theorem calls_perform {c : Cmd} :
    (perform c : Program Cmd Answer Failure (Answer c)).Calls C ↔ C c := by
  refine ⟨fun h => h.1, fun h => ⟨h, fun r => ?_⟩⟩
  cases r <;> trivial

theorem Calls.mono {C' : Cmd → Prop} (hp : p.Calls C) (hC : ∀ c, C c → C' c) : p.Calls C' := by
  induction p with
  | done a => trivial
  | raise e => trivial
  | call c next ih => exact ⟨hC c hp.1, fun r => ih r (hp.2 r)⟩

theorem Calls.bind {f : α → Program Cmd Answer Failure β} (hp : p.Calls C)
    (hf : ∀ a, (f a).Calls C) : (p.bind f).Calls C := by
  induction p with
  | done a => exact hf a
  | raise e => trivial
  | call c next ih => exact ⟨hp.1, fun r => ih r (hp.2 r)⟩

theorem Calls.tryExcept {handler : Failure → Program Cmd Answer Failure α} (hp : p.Calls C)
    (hhandler : ∀ e, (handler e).Calls C) : (p.tryExcept handler).Calls C := by
  induction p with
  | done a => trivial
  | raise e => exact hhandler e
  | call c next ih => exact ⟨hp.1, fun r => ih r (hp.2 r)⟩

theorem Calls.tryFinally {cleanup : Program Cmd Answer Failure Unit} (hp : p.Calls C)
    (hcleanup : cleanup.Calls C) : (p.tryFinally cleanup).Calls C := by
  induction p with
  | done a => exact hcleanup.bind fun _ => trivial
  | raise e => exact hcleanup.bind fun _ => trivial
  | call c next ih => exact ⟨hp.1, fun r => ih r (hp.2 r)⟩

end Calls

end Program

/-! ## threads over a world -/

/-- A world: what a command comes to, some choice being the world's own, what
the world does by itself, and the program that each thread runs. -/
structure Machine (σ Thread Choice Env Cmd : Type) (Answer : Cmd → Type) (Failure : Type) where
  exec : Thread → σ → (c : Cmd) → Choice → Option (σ × Except Failure (Answer c))
  env : σ → Env → Option σ
  program : Thread → Program Cmd Answer Failure Unit

/-- What happens: a thread begins, or takes a step, or the world moves by
itself. -/
inductive Event (Thread Choice Env : Type) where
  | begins (t : Thread)
  | steps (t : Thread) (choice : Choice)
  | world (e : Env)

/-- The world, and what is left of the program of each thread that has begun. -/
structure Config (σ Thread Cmd : Type) (Answer : Cmd → Type) (Failure : Type) where
  world : σ
  left : Thread → Option (Program Cmd Answer Failure Unit) := fun _ => none

section Machine

variable {σ Thread Choice Env Cmd : Type} {Answer : Cmd → Type} {Failure : Type}
  [DecidableEq Thread]

/-- A thread goes on as `p`. -/
def Config.goOn (c : Config σ Thread Cmd Answer Failure) (t : Thread)
    (p : Program Cmd Answer Failure Unit) : Config σ Thread Cmd Answer Failure :=
  { c with left := fun t' => if t' = t then some p else c.left t' }

variable (M : Machine σ Thread Choice Env Cmd Answer Failure)

/-- One event. -/
def Machine.step (c : Config σ Thread Cmd Answer Failure) :
    Event Thread Choice Env → Option (Config σ Thread Cmd Answer Failure)
  | .begins t =>
      match c.left t with
      | none => some (c.goOn t (M.program t))
      | some _ => none
  | .steps t choice =>
      match c.left t with
      | some (.call cmd next) =>
          (M.exec t c.world cmd choice).map fun (w, r) => { c with world := w }.goOn t (next r)
      | _ => none
  | .world e => (M.env c.world e).map fun w => { c with world := w }

variable {M} in
/-- What an event makes of the world. -/
theorem Machine.step_cases {c c' : Config σ Thread Cmd Answer Failure}
    {e : Event Thread Choice Env} (h : M.step c e = some c') :
    (∃ t, e = .begins t ∧ c'.world = c.world) ∨
      (∃ t choice cmd next r, e = .steps t choice ∧ c.left t = some (.call cmd next) ∧
        M.exec t c.world cmd choice = some (c'.world, r)) ∨
      ∃ e', e = .world e' ∧ M.env c.world e' = some c'.world := by
  cases e with
  | begins t =>
      simp only [Machine.step] at h
      split at h
      · exact .inl ⟨t, rfl, Option.some.inj h ▸ rfl⟩
      · contradiction
  | steps t choice =>
      simp only [Machine.step] at h
      split at h
      · next cmd next hleft =>
          obtain ⟨⟨w, r⟩, hexec, rfl⟩ := Option.map_eq_some_iff.mp h
          exact .inr (.inl ⟨t, choice, cmd, next, r, rfl, hleft, hexec⟩)
      · contradiction
  | world e =>
      obtain ⟨w, hw, rfl⟩ := Option.map_eq_some_iff.mp h
      exact .inr (.inr ⟨e, rfl, hw⟩)

variable {M} in
/-- A thread comes to no command but those of its program. -/
theorem Machine.calls_of_run {C : Cmd → Prop} {t : Thread} (hprogram : (M.program t).Calls C)
    {σ₀ : σ} {c : Config σ Thread Cmd Answer Failure} {es : List (Event Thread Choice Env)}
    (hrun : run M.step { world := σ₀ } es = some c) {p : Program Cmd Answer Failure Unit}
    (hleft : c.left t = some p) : p.Calls C := by
  refine invariant (I := fun c => ∀ p, c.left t = some p → Program.Calls C p)
    (fun {c e c'} hI hstep p hleft => ?_) (by simp) hrun p hleft
  cases e with
  | begins t' =>
      simp only [Machine.step] at hstep
      split at hstep
      · obtain rfl := Option.some.inj hstep
        simp only [Config.goOn] at hleft
        split at hleft
        · next heq => subst heq; exact Option.some.inj hleft ▸ hprogram
        · exact hI p hleft
      · contradiction
  | steps t' choice =>
      simp only [Machine.step] at hstep
      split at hstep
      · next cmd next hnext =>
          obtain ⟨⟨w, r⟩, -, rfl⟩ := Option.map_eq_some_iff.mp hstep
          simp only [Config.goOn] at hleft
          split at hleft
          · next heq =>
              have hcalls : Program.Calls C (.call cmd next) := hI _ (heq ▸ hnext)
              exact Option.some.inj hleft ▸ hcalls.2 r
          · exact hI p hleft
      · contradiction
  | world e =>
      obtain ⟨w, -, rfl⟩ := Option.map_eq_some_iff.mp hstep
      exact hI p hleft

/-- Every step of a thread is one that is supposed to happen. -/
def Taken (supposed : Thread → σ → Cmd → Choice → Prop) (c : Config σ Thread Cmd Answer Failure) :
    Event Thread Choice Env → Prop
  | .steps t choice => ∀ cmd next, c.left t = some (.call cmd next) →
      supposed t c.world cmd choice
  | _ => True

omit [DecidableEq Thread] in
theorem Taken.mono {supposed supposed' : Thread → σ → Cmd → Choice → Prop}
    {c : Config σ Thread Cmd Answer Failure} {e : Event Thread Choice Env}
    (h : Taken supposed c e)
    (hmono : ∀ t s cmd choice, supposed t s cmd choice → supposed' t s cmd choice) :
    Taken supposed' c e := by
  cases e with
  | begins t => trivial
  | steps t choice => exact fun cmd next hleft => hmono _ _ _ _ (h cmd next hleft)
  | world e => trivial

omit [DecidableEq Thread] in
theorem Taken.and {supposed supposed' : Thread → σ → Cmd → Choice → Prop}
    {c : Config σ Thread Cmd Answer Failure} {e : Event Thread Choice Env}
    (h : Taken supposed c e) (h' : Taken supposed' c e) :
    Taken (fun t s cmd choice => supposed t s cmd choice ∧ supposed' t s cmd choice) c e := by
  cases e with
  | begins t => trivial
  | steps t choice => exact fun cmd next hleft => ⟨h cmd next hleft, h' cmd next hleft⟩
  | world e => trivial

instance decidableTaken {supposed : Thread → σ → Cmd → Choice → Prop}
    [∀ t s c choice, Decidable (supposed t s c choice)]
    (c : Config σ Thread Cmd Answer Failure) :
    (e : Event Thread Choice Env) → Decidable (Taken supposed c e)
  | .begins _ => .isTrue trivial
  | .world _ => .isTrue trivial
  | .steps t choice =>
      match hleft : c.left t with
      | some (.call cmd next) =>
          decidable_of_iff (supposed t c.world cmd choice)
            ⟨fun h cmd' next' heq => by cases hleft.symm.trans heq; exact h,
              fun h => h cmd next hleft⟩
      | some (.done a) => .isTrue (by simp [Taken, hleft])
      | some (.raise e) => .isTrue (by simp [Taken, hleft])
      | none => .isTrue (by simp [Taken, hleft])

/-! ### progress -/

/-- A thread can take its next step, whatever the world chooses. -/
def Machine.Enabled (c : Config σ Thread Cmd Answer Failure) (t : Thread) : Prop :=
  ∀ choice, ∃ c', M.step c (.steps t choice) = some c'

section Progress

variable {M} {c : Config σ Thread Cmd Answer Failure} {t : Thread} {cmd : Cmd}
  {next : Except Failure (Answer cmd) → Program Cmd Answer Failure Unit}

theorem Machine.enabled_of_exec (hleft : c.left t = some (.call cmd next))
    (h : ∀ choice, ∃ w r, M.exec t c.world cmd choice = some (w, r)) : M.Enabled c t := by
  intro choice
  obtain ⟨w, r, hexec⟩ := h choice
  simp only [Machine.step, hleft, hexec, Option.map_some]
  exact ⟨_, rfl⟩

/-- **Progress rule**: where a thread that has to wait waits for one whose command
ranks lower, some thread can go on while any is under way. -/
theorem Machine.progress (rank : Cmd → Nat)
    (hwaits : ∀ t cmd next, c.left t = some (.call cmd next) → M.Enabled c t ∨
      ∃ t' cmd' next', c.left t' = some (.call cmd' next') ∧ rank cmd' < rank cmd)
    (hleft : c.left t = some (.call cmd next)) : ∃ t', M.Enabled c t' := by
  generalize hrank : rank cmd = n
  induction n using Nat.strongRecOn generalizing t cmd with
  | ind n ih =>
      rcases hwaits t cmd next hleft with henabled | ⟨t', cmd', next', hleft', hlower⟩
      · exact ⟨t, henabled⟩
      · exact ih (rank cmd') (hrank ▸ hlower) hleft' rfl

end Progress

end Machine

/-! ## what threads rely on and promise -/

/-- What holds of the world throughout, what a thread may rely on others to
keep, which steps are supposed not to happen, and what a thread promises of a
command when it calls it. -/
structure Discipline {σ Thread Choice Env Cmd : Type} {Answer : Cmd → Type} {Failure : Type}
    (M : Machine σ Thread Choice Env Cmd Answer Failure) where
  inv : σ → Prop
  rely : Thread → σ → σ → Prop
  allowed : Thread → σ → Cmd → Choice → Prop
  allowedEnv : σ → Env → Prop
  promise : Thread → σ → Cmd → Prop
  rely_refl : ∀ t s, rely t s s
  rely_trans : ∀ {t s s' s''}, rely t s s' → rely t s' s'' → rely t s s''

namespace Discipline

variable {σ Thread Choice Env Cmd : Type} {Answer : Cmd → Type} {Failure : Type}
  {M : Machine σ Thread Choice Env Cmd Answer Failure} (D : Discipline M) {t : Thread}
  {α β : Type}

/-- A step of one thread that keeps the invariant and what the others rely on. -/
structure Fair (t : Thread) (s s' : σ) : Prop where
  inv : D.inv s'
  rely : ∀ t', t' ≠ t → D.rely t' s s'

/-- From `s` on, whatever the others do, the program calls only what is
promised, steps fairly, and ends in `Q`. -/
def Safe (t : Thread) (Q : Except Failure α → σ → Prop) : Program Cmd Answer Failure α → σ → Prop
  | .done a, s => Q (.ok a) s
  | .raise e, s => Q (.error e) s
  | .call c next, s => ∀ s', D.rely t s s' → D.inv s' → D.promise t s' c ∧
      ∀ choice s'' r, D.allowed t s' c choice → M.exec t s' c choice = some (s'', r) →
        D.Fair t s' s'' ∧ Safe t Q (next r) s''

/-- What the others cannot take away. -/
def Stable (t : Thread) (P : σ → Prop) : Prop := ∀ s s', P s → D.rely t s s' → P s'

/-- The triple: from `P` the program is safe and ends in `Q`. -/
def Keeps (t : Thread) (P : σ → Prop) (p : Program Cmd Answer Failure α)
    (Q : Except Failure α → σ → Prop) : Prop := ∀ s, D.inv s → P s → D.Safe t Q p s

variable {D} {P P' : σ → Prop} {p : Program Cmd Answer Failure α}
  {Q Q' : Except Failure α → σ → Prop}

theorem Safe.mono {s : σ} (h : D.Safe t Q p s) (hQ : ∀ r s, Q r s → Q' r s) :
    D.Safe t Q' p s := by
  induction p generalizing s with
  | done a => exact hQ _ _ h
  | raise e => exact hQ _ _ h
  | call c next ih =>
      intro s' hrely hinv
      obtain ⟨hpromise, hstep⟩ := h s' hrely hinv
      refine ⟨hpromise, fun choice s'' r hallowed hexec => ?_⟩
      obtain ⟨hfair, hnext⟩ := hstep choice s'' r hallowed hexec
      exact ⟨hfair, ih r hnext⟩

/-- Interference before the first command changes nothing. -/
theorem Safe.rely {c : Cmd} {next : Except Failure (Answer c) → Program Cmd Answer Failure α}
    {s s' : σ} (h : D.Safe t Q (.call c next) s) (hrely : D.rely t s s') :
    D.Safe t Q (.call c next) s' :=
  fun s'' hrely' hinv => h s'' (D.rely_trans hrely hrely') hinv

/-! ### the rules -/

theorem Keeps.weaken (h : D.Keeps t P p Q) (hP : ∀ s, D.inv s → P' s → P s)
    (hQ : ∀ r s, Q r s → Q' r s) : D.Keeps t P' p Q' :=
  fun s hinv hP' => (h s hinv (hP s hinv hP')).mono hQ

theorem Keeps.pre (h : D.Keeps t P p Q) (hP : ∀ s, D.inv s → P' s → P s) : D.Keeps t P' p Q :=
  h.weaken hP fun _ _ h => h

theorem Keeps.post (h : D.Keeps t P p Q) (hQ : ∀ r s, Q r s → Q' r s) : D.Keeps t P p Q' :=
  h.weaken (fun _ _ h => h) hQ

theorem Keeps.done {a : α} (h : ∀ s, D.inv s → P s → Q (.ok a) s) :
    D.Keeps t P (.done a) Q := h

theorem Keeps.raise {e : Failure} (h : ∀ s, D.inv s → P s → Q (.error e) s) :
    D.Keeps t P (.raise e) Q := h

/-- **Sequencing**: the second program starts from what the first leaves. -/
theorem Keeps.bind {f : α → Program Cmd Answer Failure β} {R : Except Failure β → σ → Prop}
    {B : Except Failure α → σ → Prop} (hp : D.Keeps t P p B)
    (hf : ∀ a, D.Keeps t (B (.ok a)) (f a) R)
    (hraise : ∀ e s, D.inv s → B (.error e) s → R (.error e) s) :
    D.Keeps t P (p.bind f) R := by
  have hsafe : ∀ s, D.inv s → D.Safe t B p s → D.Safe t R (p.bind f) s := by
    clear hp
    induction p with
    | done a => exact fun s hinv h => hf a s hinv h
    | raise e => exact fun s hinv h => hraise e s hinv h
    | call c next ih =>
        intro s _ h s' hrely hinv
        obtain ⟨hpromise, hstep⟩ := h s' hrely hinv
        refine ⟨hpromise, fun choice s'' r hallowed hexec => ?_⟩
        obtain ⟨hfair, hnext⟩ := hstep choice s'' r hallowed hexec
        exact ⟨hfair, ih r s'' hfair.inv hnext⟩
  exact fun s hinv hP => hsafe s hinv (hp s hinv hP)

/-- `try … except`: the handler starts from what the failure leaves. -/
theorem Keeps.tryExcept {handler : Failure → Program Cmd Answer Failure α}
    {B : Except Failure α → σ → Prop} (hp : D.Keeps t P p B)
    (hdone : ∀ a s, D.inv s → B (.ok a) s → Q (.ok a) s)
    (hhandler : ∀ e, D.Keeps t (B (.error e)) (handler e) Q) :
    D.Keeps t P (p.tryExcept handler) Q := by
  have hsafe : ∀ s, D.inv s → D.Safe t B p s → D.Safe t Q (p.tryExcept handler) s := by
    clear hp
    induction p with
    | done a => exact fun s hinv h => hdone a s hinv h
    | raise e => exact fun s hinv h => hhandler e s hinv h
    | call c next ih =>
        intro s _ h s' hrely hinv
        obtain ⟨hpromise, hstep⟩ := h s' hrely hinv
        refine ⟨hpromise, fun choice s'' r hallowed hexec => ?_⟩
        obtain ⟨hfair, hnext⟩ := hstep choice s'' r hallowed hexec
        exact ⟨hfair, ih r s'' hfair.inv hnext⟩
  exact fun s hinv hP => hsafe s hinv (hp s hinv hP)

/-- What a cleanup leaves: what its body came to, unless it fails itself. -/
def Cleaned (Q : Except Failure α → σ → Prop) (r : Except Failure α) :
    Except Failure Unit → σ → Prop
  | .ok _, s => Q r s
  | .error e, s => Q (.error e) s

/-- `try … finally`: the cleanup starts from either end, and hands it on. -/
theorem Keeps.tryFinally {cleanup : Program Cmd Answer Failure Unit}
    {B : Except Failure α → σ → Prop} (hp : D.Keeps t P p B)
    (hcleanup : ∀ r, D.Keeps t (B r) cleanup (Cleaned Q r)) :
    D.Keeps t P (p.tryFinally cleanup) Q := by
  have hsafe : ∀ s, D.inv s → D.Safe t B p s → D.Safe t Q (p.tryFinally cleanup) s := by
    clear hp
    induction p with
    | done a =>
        have hend : D.Keeps t (B (.ok a)) (cleanup.bind fun _ => .done a) Q :=
          Keeps.bind (hcleanup (.ok a)) (fun _ => Keeps.done fun _ _ h => h) fun _ _ _ h => h
        exact fun s hinv h => hend s hinv h
    | raise e =>
        have hend : D.Keeps t (B (.error e)) (cleanup.bind fun _ => .raise e) Q :=
          Keeps.bind (hcleanup (.error e)) (fun _ => Keeps.raise fun _ _ h => h) fun _ _ _ h => h
        exact fun s hinv h => hend s hinv h
    | call c next ih =>
        intro s _ h s' hrely hinv
        obtain ⟨hpromise, hstep⟩ := h s' hrely hinv
        refine ⟨hpromise, fun choice s'' r hallowed hexec => ?_⟩
        obtain ⟨hfair, hnext⟩ := hstep choice s'' r hallowed hexec
        exact ⟨hfair, ih r s'' hfair.inv hnext⟩
  exact fun s hinv hP => hsafe s hinv (hp s hinv hP)

/-- **One command**: what it comes to from `P`, which interference keeps. -/
theorem Keeps.perform {c : Cmd} {Q : Except Failure (Answer c) → σ → Prop} (hP : D.Stable t P)
    (hc : ∀ s, D.inv s → P s → D.promise t s c ∧ ∀ choice s' r, D.allowed t s c choice →
      M.exec t s c choice = some (s', r) → D.Fair t s s' ∧ Q r s') :
    D.Keeps t P (Program.perform c) Q := by
  intro s _ hPs s' hrely hinv
  obtain ⟨hpromise, hstep⟩ := hc s' hinv (hP s s' hPs hrely)
  refine ⟨hpromise, fun choice s'' r hallowed hexec => ?_⟩
  obtain ⟨hfair, hQ⟩ := hstep choice s'' r hallowed hexec
  refine ⟨hfair, ?_⟩
  cases r with
  | ok a => exact hQ
  | error e => exact hQ

/-! ### programs that leave what they were started from -/

/-- `P` again, with `A` of what the program came to. -/
def Leaving (P : σ → Prop) (A : α → Prop) : Except Failure α → σ → Prop
  | .ok a, s => P s ∧ A a
  | .error _, s => P s

section Leaving

variable {A : α → Prop} {B : β → Prop}

theorem Keeps.doneLeaving {a : α} (ha : A a) : D.Keeps t P (.done a) (Leaving P A) :=
  Keeps.done fun _ _ h => ⟨h, ha⟩

theorem Keeps.raiseLeaving {e : Failure} :
    D.Keeps t P (.raise e : Program Cmd Answer Failure α) (Leaving P A) :=
  Keeps.raise fun _ _ h => h

theorem Keeps.bindLeaving {f : α → Program Cmd Answer Failure β}
    (hp : D.Keeps t P p (Leaving P A)) (hf : ∀ a, A a → D.Keeps t P (f a) (Leaving P B)) :
    D.Keeps t P (p.bind f) (Leaving P B) :=
  hp.bind (fun a s hinv h => hf a h.2 s hinv h.1) fun _ _ _ h => h

theorem Keeps.tryExceptLeaving {handler : Failure → Program Cmd Answer Failure α}
    (hp : D.Keeps t P p (Leaving P A))
    (hhandler : ∀ e, D.Keeps t P (handler e) (Leaving P A)) :
    D.Keeps t P (p.tryExcept handler) (Leaving P A) :=
  hp.tryExcept (fun _ _ _ h => h) hhandler

/-- A command that may be called anywhere in `P`, and leaves it. -/
def Keeping (D : Discipline M) (t : Thread) (P : σ → Prop) (c : Cmd) : Prop :=
  D.Keeps t P (Program.perform c) (Leaving P fun _ => True)

/-- A program of such commands leaves `P`. -/
theorem Keeps.of_calls {C : Cmd → Prop} (hp : p.Calls C) (hC : ∀ c, C c → D.Keeping t P c) :
    D.Keeps t P p (Leaving P fun _ => True) := by
  have hsafe : ∀ s, D.inv s → P s → D.Safe t (Leaving P fun _ => True) p s := by
    induction p with
    | done a => exact fun s _ hPs => ⟨hPs, trivial⟩
    | raise e => exact fun s _ hPs => hPs
    | call c next ih =>
        intro s hinv hPs s' hrely hinv'
        obtain ⟨hpromise, hstep⟩ := hC c hp.1 s hinv hPs s' hrely hinv'
        refine ⟨hpromise, fun choice s'' r hallowed hexec => ?_⟩
        obtain ⟨hfair, hnext⟩ := hstep choice s'' r hallowed hexec
        refine ⟨hfair, ih r (hp.2 r) s'' hfair.inv ?_⟩
        cases r with
        | ok a => exact hnext.1
        | error e => exact hnext
  exact hsafe

end Leaving

/-! ### programs that do not fail -/

/-- It comes to something, and leaves `R`. -/
def To (R : α → σ → Prop) : Except Failure α → σ → Prop
  | .ok a, s => R a s
  | .error _, _ => False

theorem To.mono {R R' : α → σ → Prop} (hR : ∀ a s, R a s → R' a s) (r : Except Failure α) (s : σ)
    (h : To R r s) : To R' r s := by
  cases r with
  | ok a => exact hR a s h
  | error e => exact h

/-- Sequencing, where the first cannot fail. -/
theorem keeps_then {f : α → Program Cmd Answer Failure β} {R : α → σ → Prop}
    {B : Except Failure β → σ → Prop} (hp : D.Keeps t P p (To R))
    (hf : ∀ a, D.Keeps t (R a) (f a) B) : D.Keeps t P (p.bind f) B :=
  hp.bind hf fun _ _ _ h => h.elim

theorem keeps_done {a : α} {R : α → σ → Prop} (h : ∀ s, P s → R a s) :
    D.Keeps t P (.done a) (To R) :=
  Keeps.done fun s _ hs => h s hs

/-- Either way. -/
theorem keeps_ite {b : Prop} [Decidable b] {q : Program Cmd Answer Failure α}
    (hp : D.Keeps t P p Q) (hq : D.Keeps t P q Q) : D.Keeps t P (if b then p else q) Q := by
  split
  · exact hp
  · exact hq

/-- Every command that is called as promised is fair, and comes to something. -/
structure Sound (D : Discipline M) : Prop where
  fair : ∀ {t s c choice s' r}, D.inv s → D.promise t s c → D.allowed t s c choice →
    M.exec t s c choice = some (s', r) → D.Fair t s s'
  ok : ∀ {t s} {c : Cmd} {choice s' r}, M.exec t s c choice = some (s', r) → ∃ a, r = .ok a

/-- A command as promised. -/
theorem Sound.keeps (hD : D.Sound) {c : Cmd} {R : Answer c → σ → Prop} (hP : D.Stable t P)
    (hpromise : ∀ s, D.inv s → P s → D.promise t s c)
    (hR : ∀ s choice s' a, D.inv s → P s → D.allowed t s c choice → D.inv s' →
      M.exec t s c choice = some (s', .ok a) → R a s') :
    D.Keeps t P (Program.perform c) (To R) := by
  refine Keeps.perform hP fun s hinv hPs => ⟨hpromise s hinv hPs, ?_⟩
  intro choice s' r hallowed hexec
  have hfair := hD.fair hinv (hpromise s hinv hPs) hallowed hexec
  obtain ⟨a, rfl⟩ := hD.ok hexec
  exact ⟨hfair, hR s choice s' a hinv hPs hallowed hfair.inv hexec⟩

/-- A command that might as well be another thread's leaves what its own one knows. -/
theorem Sound.asks (hD : D.Sound) {c : Cmd} {A : Answer c → σ → Prop} (hP : D.Stable t P)
    (hpromise : ∀ s, D.inv s → P s → D.promise t s c)
    (hquiet : ∀ s choice s' r, D.inv s → P s → M.exec t s c choice = some (s', r) → D.rely t s s')
    (hA : ∀ s choice s' a, D.inv s → P s → D.allowed t s c choice → D.inv s' →
      M.exec t s c choice = some (s', .ok a) → A a s') :
    D.Keeps t P (Program.perform c) (To fun a s => P s ∧ A a s) :=
  hD.keeps hP hpromise fun s choice s' a hinv hPs hallowed hinv' hexec =>
    ⟨hP s s' hPs (hquiet s choice s' _ hinv hPs hexec),
      hA s choice s' a hinv hPs hallowed hinv' hexec⟩

theorem Stable.and {P P' : σ → Prop} (h : D.Stable t P) (h' : D.Stable t P') :
    D.Stable t fun s => P s ∧ P' s :=
  fun s s' hP hrely => ⟨h s s' hP.1 hrely, h' s s' hP.2 hrely⟩

theorem stable_true : D.Stable t fun _ => True := fun _ _ _ _ => trivial

/-! ### whole runs -/

section Runs

variable [DecidableEq Thread]

/-- A step that is supposed to happen. -/
def Supposed (D : Discipline M) (c : Config σ Thread Cmd Answer Failure) :
    Event Thread Choice Env → Prop
  | .begins _ => True
  | .steps t choice => ∀ cmd next, c.left t = some (.call cmd next) →
      D.allowed t c.world cmd choice
  | .world e => D.allowedEnv c.world e

omit [DecidableEq Thread] in
theorem supposed_of_taken {c : Config σ Thread Cmd Answer Failure}
    {e : Event Thread Choice Env} (henv : ∀ s e, D.allowedEnv s e) (h : Taken D.allowed c e) :
    D.Supposed c e := by
  cases e with
  | begins t => trivial
  | steps t choice => exact h
  | world e => exact henv _ e

/-- The invariant holds, each thread that has begun is safe, and the others are as
they are before. -/
structure Holds (D : Discipline M) (start : Thread → σ → Prop)
    (ends : Thread → Except Failure Unit → σ → Prop)
    (c : Config σ Thread Cmd Answer Failure) : Prop where
  inv : D.inv c.world
  safe : ∀ t p, c.left t = some p → D.Safe t (ends t) p c.world
  idle : ∀ t, c.left t = none → start t c.world

variable {start : Thread → σ → Prop} {ends : Thread → Except Failure Unit → σ → Prop}
  {c c' : Config σ Thread Cmd Answer Failure} {e : Event Thread Choice Env}

omit [DecidableEq Thread] in
/-- What interference leaves of a thread's part. -/
theorem Safe.later {s s' : σ} (hends : ∀ t r, D.Stable t (ends t r))
    {p : Program Cmd Answer Failure Unit} (h : D.Safe t (ends t) p s) (hrely : D.rely t s s') :
    D.Safe t (ends t) p s' := by
  cases p with
  | done a => exact hends t _ s s' h hrely
  | raise e => exact hends t _ s s' h hrely
  | call c next => exact h.rely hrely

/-- One event keeps everything. -/
theorem Holds.step (h : D.Holds start ends c) (hstart : ∀ t, D.Stable t (start t))
    (hends : ∀ t r, D.Stable t (ends t r))
    (hprogram : ∀ t, D.Keeps t (start t) (M.program t) (ends t))
    (henv : ∀ s e s', D.inv s → D.allowedEnv s e → M.env s e = some s' →
      D.inv s' ∧ ∀ t, D.rely t s s')
    (hsupposed : D.Supposed c e) (hs : M.step c e = some c') : D.Holds start ends c' := by
  cases e with
  | begins t =>
      simp only [Machine.step] at hs
      split at hs
      · next hidle =>
          obtain rfl := Option.some.inj hs
          refine ⟨h.inv, fun t' p hp => ?_, fun t' hidle' => ?_⟩
          · by_cases heq : t' = t
            · subst heq
              simp only [Config.goOn, if_true, Option.some.injEq] at hp
              exact hp ▸ hprogram t' c.world h.inv (h.idle t' hidle)
            · simp only [Config.goOn, if_neg heq] at hp
              exact h.safe t' p hp
          · by_cases heq : t' = t
            · simp [Config.goOn, heq] at hidle'
            · simp only [Config.goOn, if_neg heq] at hidle'
              exact h.idle t' hidle'
      · contradiction
  | steps t choice =>
      simp only [Machine.step] at hs
      split at hs
      · next cmd next hleft =>
          obtain ⟨⟨w, r⟩, hexec, rfl⟩ := Option.map_eq_some_iff.mp hs
          have hallowed := hsupposed cmd next hleft
          obtain ⟨-, hstep⟩ := h.safe t _ hleft c.world (D.rely_refl t _) h.inv
          obtain ⟨hfair, hnext⟩ := hstep choice w r hallowed hexec
          refine ⟨hfair.inv, fun t' p hp => ?_, fun t' hidle => ?_⟩
          · by_cases heq : t' = t
            · subst heq
              simp only [Config.goOn, if_true, Option.some.injEq] at hp
              exact hp ▸ hnext
            · simp only [Config.goOn, if_neg heq] at hp
              exact (h.safe t' p hp).later hends (hfair.rely t' heq)
          · by_cases heq : t' = t
            · simp [Config.goOn, heq] at hidle
            · simp only [Config.goOn, if_neg heq] at hidle
              exact hstart t' _ _ (h.idle t' hidle) (hfair.rely t' heq)
      · contradiction
  | world e =>
      obtain ⟨w, hw, rfl⟩ := Option.map_eq_some_iff.mp hs
      obtain ⟨hinv, hrely⟩ := henv c.world e w h.inv hsupposed hw
      exact ⟨hinv, fun t p hp => (h.safe t p hp).later hends (hrely t),
        fun t hidle => hstart t _ _ (h.idle t hidle) (hrely t)⟩

/-- **Run rule**: whatever the interleaving, the invariant holds, every thread
under way is safe, and one that has ended has left what it ends in. -/
theorem of_run (hstart : ∀ t, D.Stable t (start t)) (hends : ∀ t r, D.Stable t (ends t r))
    (hprogram : ∀ t, D.Keeps t (start t) (M.program t) (ends t))
    (henv : ∀ s e s', D.inv s → D.allowedEnv s e → M.env s e = some s' →
      D.inv s' ∧ ∀ t, D.rely t s s')
    {w : σ} (hinv : D.inv w) (hinit : ∀ t, start t w) {es : List (Event Thread Choice Env)}
    (hsupposed : Meets M.step D.Supposed { world := w } es)
    (hrun : run M.step { world := w } es = some c) : D.Holds start ends c :=
  invariant_of_meets (fun h hC hs => h.step hstart hends hprogram henv hC hs)
    ⟨hinv, by simp, fun t _ => hinit t⟩ hsupposed hrun

omit [DecidableEq Thread] in
/-- The command a thread is about to call is as promised. -/
theorem Holds.promise (h : D.Holds start ends c) {cmd : Cmd}
    {next : Except Failure (Answer cmd) → Program Cmd Answer Failure Unit}
    (hleft : c.left t = some (.call cmd next)) : D.promise t c.world cmd :=
  (h.safe t _ hleft c.world (D.rely_refl t _) h.inv).1

end Runs

end Discipline

end Interleaving
