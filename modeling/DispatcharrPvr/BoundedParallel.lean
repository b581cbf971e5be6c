import DispatcharrPvr.Lib.Runs
import Mathlib.Algebra.Group.Nat.Defs
import Mathlib.Data.List.Nodup
import Mathlib.Data.List.Perm.Subperm
import Mathlib.Tactic.ByContra

/-!
# BoundedParallel

`RunInBoundedBatches` (`BoundedParallel.cpp`): the calling thread and the
threads it starts, one step at a time in any order.  A thread may fail to start
and a task may throw; the calling thread may only join a thread that has ended.

A `size_t` is a number below a modulus, and `reserve` throws beyond a bound of
its own; both are the platform's.
-/

namespace DispatcharrPvr

namespace BoundedParallel

open Runs

/-! ## the source -/

/-- How a call ends. -/
inductive Outcome
  | returns
  | throws
deriving DecidableEq

/-- `RunGuarded`: what a task throws goes no further. -/
def runGuarded (task : Outcome) : Outcome :=
  match task with
  | .returns => .returns
  | .throws => .returns

/-- What of the platform matters. -/
structure Platform where
  /-- The numbers of a `size_t`. -/
  sizeModulus : Nat
  /-- The most threads a vector can reserve room for: its `max_size`, or less. -/
  maxReserve : Nat
  one_lt : 1 < sizeModulus

/-- The arguments of a call. -/
structure Call (platform : Platform) where
  count : Nat
  batchSize : Nat
  count_lt : count < platform.sizeModulus
  batchSize_lt : batchSize < platform.sizeModulus

/-- Where the calling thread is, with its locals. -/
inductive Caller
  /-- At the head of the loop over the batches. -/
  | looping (batchStart : Nat)
  /-- In the loop that starts threads. -/
  | spawning (batchStart batchEnd next : Nat)
  /-- In the loop behind it. -/
  | fallback (batchStart batchEnd next : Nat)
  /-- In a task of that loop. -/
  | calling (batchStart batchEnd next : Nat)
  /-- In the loop that joins, before the threads of these indices. -/
  | joining (batchStart : Nat) (left : List Nat)
  | returned
  /-- An exception has left the call, or a thread. -/
  | raised
deriving DecidableEq

/-- The state of a call. -/
structure BatchState where
  caller : Caller
  /-- `batch`: the threads, by the index each was started for. -/
  batch : List Nat := []
  /-- The threads that have not begun their task. -/
  waiting : List Nat := []
  /-- The threads in their task. -/
  running : List Nat := []
  /-- The tasks begun, in order. -/
  begun : List Nat := []
  /-- The tasks that have ended. -/
  ended : List Nat := []
deriving DecidableEq

/-- What happens next: the calling thread goes on, where it starts a thread or
is in a task with an outcome; or a thread begins its task, or is done with it. -/
inductive Event
  | caller (outcome : Outcome)
  | begins (index : Nat)
  | ends (index : Nat) (outcome : Outcome)
deriving DecidableEq

variable {platform : Platform} (call : Call platform)

/-- The batch size, of which 0 counts as 1. -/
def Call.size : Nat := if call.batchSize = 0 then 1 else call.batchSize

/-- A sum of two `size_t`. -/
def addSize (platform : Platform) (a b : Nat) : Nat := (a + b) % platform.sizeModulus

/-- A difference of two `size_t`. -/
def subSize (platform : Platform) (a b : Nat) : Nat :=
  (a + (platform.sizeModulus - b)) % platform.sizeModulus

/-- The calling thread's next step, where it has one. -/
def callerStep (s : BatchState) (outcome : Outcome) : Option BatchState :=
  match s.caller with
  | .looping batchStart =>
      if batchStart < call.count then
        let batchEnd := min (addSize platform batchStart call.size) call.count
        if subSize platform batchEnd batchStart ≤ platform.maxReserve then
          some { s with caller := .spawning batchStart batchEnd batchStart, batch := [] }
        else some { s with caller := .raised }
      else some { s with caller := .returned }
  | .spawning batchStart batchEnd next =>
      if next < batchEnd then
        match outcome with
        | .returns =>
            some { s with
              caller := .spawning batchStart batchEnd (next + 1)
              batch := s.batch ++ [next]
              waiting := s.waiting ++ [next] }
        | .throws => some { s with caller := .fallback batchStart batchEnd next }
      else some { s with caller := .fallback batchStart batchEnd next }
  | .fallback batchStart batchEnd next =>
      if next < batchEnd then
        some { s with
          caller := .calling batchStart batchEnd next
          begun := s.begun ++ [next] }
      else some { s with caller := .joining batchStart s.batch }
  | .calling batchStart batchEnd next =>
      match runGuarded outcome with
      | .returns =>
          some { s with
            caller := .fallback batchStart batchEnd (next + 1)
            ended := s.ended ++ [next] }
      | .throws => some { s with caller := .raised }
  | .joining batchStart [] =>
      some { s with caller := .looping (addSize platform batchStart call.size) }
  | .joining batchStart (index :: left) =>
      -- `join` waits for the thread
      if index ∈ s.waiting ∨ index ∈ s.running then none
      else some { s with caller := .joining batchStart left }
  | .returned => none
  | .raised => none

/-- One step of a call. -/
def step (s : BatchState) : Event → Option BatchState
  | .caller outcome => callerStep call s outcome
  | .begins index =>
      if index ∈ s.waiting then
        some { s with
          waiting := s.waiting.erase index
          running := s.running ++ [index]
          begun := s.begun ++ [index] }
      else none
  | .ends index outcome =>
      if index ∈ s.running then
        match runGuarded outcome with
        | .returns =>
            some { s with
              running := s.running.erase index
              ended := s.ended ++ [index] }
        | .throws => some { s with caller := .raised }
      else none

/-- A call at its start. -/
def start : BatchState := { caller := .looping 0 }

/-! ## what it is for -/

/-- The task the calling thread is in. -/
def own : Caller → List Nat
  | .calling _ _ next => [next]
  | _ => []

/-- The tasks handed out and not ended. -/
def BatchState.outstanding (s : BatchState) : Nat :=
  s.waiting.length + s.running.length + (own s.caller).length

/-- Whatever fails and in whatever order things happen, each index is run once,
no more than a batch is outstanding, and the call returns, when all have ended. -/
structure RunsEveryTaskOnce : Prop where
  once : ∀ {es s}, run (step call) start es = some s →
    s.begun.Nodup ∧ ∀ i ∈ s.begun, i < call.count
  bounded : ∀ {es s}, run (step call) start es = some s → s.outstanding ≤ call.size
  complete : ∀ {es s}, run (step call) start es = some s → s.caller = .returned →
    s.begun.Perm (List.range call.count) ∧ s.ended.Perm (List.range call.count) ∧
      s.waiting = [] ∧ s.running = []
  /-- Runs are no longer than this, -/
  finite : ∃ bound, ∀ {es s}, run (step call) start es = some s → es.length ≤ bound
  /-- and go on until the call has returned. -/
  progress : ∀ {es s}, run (step call) start es = some s →
    s.caller = .returned ∨ ∃ e s', step call s e = some s'

/-- The batches can be reserved, and the end of none of them wraps. -/
structure Fits : Prop where
  reserve : min call.size call.count ≤ platform.maxReserve
  ends : ∀ batchStart, call.size ∣ batchStart → batchStart < call.count →
    batchStart + call.size < platform.sizeModulus

/-! ## arithmetic -/

theorem Call.size_pos : 0 < call.size := by
  unfold size
  split <;> omega

theorem Call.size_lt : call.size < platform.sizeModulus := by
  unfold size
  split
  · exact platform.one_lt
  · exact call.batchSize_lt

@[simp] theorem runGuarded_eq (outcome : Outcome) : runGuarded outcome = .returns := by
  cases outcome <;> rfl

/-- A difference that does not wrap. -/
theorem subSize_of_le {a b : Nat} (h : b ≤ a) (ha : a < platform.sizeModulus) :
    subSize platform a b = a - b := by
  unfold subSize
  have hsum : a + (platform.sizeModulus - b) = (a - b) + platform.sizeModulus := by omega
  rw [hsum, Nat.add_mod_right, Nat.mod_eq_of_lt (by omega)]

/-- A difference that does. -/
theorem subSize_of_lt {a b : Nat} (h : a < b) (hb : b < platform.sizeModulus) :
    subSize platform a b = platform.sizeModulus - (b - a) := by
  unfold subSize
  rw [Nat.mod_eq_of_lt (by omega)]
  omega

theorem addSize_of_lt {a b : Nat} (h : a + b < platform.sizeModulus) :
    addSize platform a b = a + b :=
  Nat.mod_eq_of_lt h

/-! ## the invariant -/

/-- How many indices have been handed out, all before the others. -/
def handed : Caller → Nat
  | .looping batchStart => min batchStart call.count
  | .spawning _ _ next => next
  | .fallback _ _ next => next
  | .calling _ _ next => next + 1
  | .joining batchStart _ => min (batchStart + call.size) call.count
  | .returned => call.count
  | .raised => 0

/-- The first index of the batch. -/
def first : Caller → Nat
  | .looping batchStart => min batchStart call.count
  | .spawning batchStart _ _ => batchStart
  | .fallback batchStart _ _ => batchStart
  | .calling batchStart _ _ => batchStart
  | .joining batchStart _ => batchStart
  | .returned => call.count
  | .raised => 0

/-- The threads still to be joined. -/
def unjoined (s : BatchState) : List Nat :=
  match s.caller with
  | .spawning .. => s.batch
  | .fallback .. => s.batch
  | .calling .. => s.batch
  | .joining _ left => left
  | _ => []

/-- A batch that begins where one may. -/
def Begins (batchStart : Nat) : Prop := call.size ∣ batchStart ∧ batchStart < call.count

/-- The locals of the calling thread are those of a batch. -/
def Placed : Caller → Prop
  | .looping batchStart => call.size ∣ batchStart
  | .spawning batchStart batchEnd next =>
      Begins call batchStart ∧ batchEnd = min (batchStart + call.size) call.count ∧
        batchStart ≤ next ∧ next ≤ batchEnd
  | .fallback batchStart batchEnd next =>
      Begins call batchStart ∧ batchEnd = min (batchStart + call.size) call.count ∧
        batchStart ≤ next ∧ next ≤ batchEnd
  | .calling batchStart batchEnd next =>
      Begins call batchStart ∧ batchEnd = min (batchStart + call.size) call.count ∧
        batchStart ≤ next ∧ next < batchEnd
  | .joining batchStart _ => Begins call batchStart
  | .returned => True
  | .raised => False

/-- The invariant of a call. -/
structure Inv (s : BatchState) : Prop where
  placed : Placed call s.caller
  /-- What is handed out has begun, or its thread waits. -/
  begun : (s.begun ++ s.waiting).Perm (List.range (handed call s.caller))
  /-- What has begun has ended or is going on. -/
  ended : (s.ended ++ s.running ++ own s.caller).Perm s.begun
  /-- What goes on, goes on in threads not joined yet. -/
  alive : ∀ i ∈ s.waiting ++ s.running, i ∈ unjoined s
  batch : ∀ i ∈ unjoined s, first call s.caller ≤ i

variable {call}

theorem inv_start : Inv call start where
  placed := Nat.dvd_zero _
  begun := by simp [start, handed]
  ended := .refl _
  alive := by simp [start]
  batch := by simp [start, unjoined]

/-- Where no thread is left to be joined, none is alive. -/
theorem Inv.idle {s : BatchState} (h : Inv call s) (hnone : unjoined s = []) :
    s.waiting = [] ∧ s.running = [] := by
  have hnil : s.waiting ++ s.running = [] := by
    refine List.eq_nil_iff_forall_not_mem.mpr fun i hi => ?_
    have hin := h.alive i hi
    rw [hnone] at hin
    contradiction
  exact List.append_eq_nil_iff.mp hnil

/-- A thread begins its task. -/
theorem Inv.begins {s s' : BatchState} {index : Nat} (h : Inv call s)
    (hstep : step call s (.begins index) = some s') : Inv call s' := by
  simp only [step, Option.ite_none_right_eq_some, Option.some.injEq] at hstep
  obtain ⟨hwaiting, rfl⟩ := hstep
  have herase := List.perm_cons_erase hwaiting
  refine ⟨h.placed, ?_, ?_, ?_, h.batch⟩
  · calc (s.begun ++ [index]) ++ s.waiting.erase index
        = s.begun ++ (index :: s.waiting.erase index) := by simp
      _ |>.Perm (s.begun ++ s.waiting) := herase.symm.append_left _
      _ |>.Perm _ := h.begun
  · have hmoved : (s.ended ++ (s.running ++ [index]) ++ own s.caller).Perm
        ((s.ended ++ s.running ++ own s.caller) ++ [index]) := by
      simp only [List.append_assoc]
      exact (List.perm_append_comm.append_left _).append_left _
    exact hmoved.trans (h.ended.append_right _)
  · intro i hi
    refine h.alive i ?_
    simp only [List.mem_append, List.mem_singleton] at hi ⊢
    obtain hi | hi | rfl := hi
    · exact .inl (List.mem_of_mem_erase hi)
    · exact .inr hi
    · exact .inl hwaiting

/-- A thread is done with its task. -/
theorem Inv.ends {s s' : BatchState} {index : Nat} {outcome : Outcome} (h : Inv call s)
    (hstep : step call s (.ends index outcome) = some s') : Inv call s' := by
  simp only [step, runGuarded_eq, Option.ite_none_right_eq_some, Option.some.injEq] at hstep
  obtain ⟨hrunning, rfl⟩ := hstep
  have herase := List.perm_cons_erase hrunning
  refine ⟨h.placed, h.begun, ?_, ?_, h.batch⟩
  · have hmoved : ((s.ended ++ [index]) ++ s.running.erase index ++ own s.caller).Perm
        (s.ended ++ s.running ++ own s.caller) := by
      rw [List.append_assoc s.ended, List.singleton_append]
      exact (herase.symm.append_left _).append_right _
    exact hmoved.trans h.ended
  · intro i hi
    refine h.alive i ?_
    simp only [List.mem_append] at hi ⊢
    exact hi.imp_right List.mem_of_mem_erase

/-- The loop over a batch makes its next thread, or stops. -/
theorem Inv.spawning {s s' : BatchState} {outcome : Outcome} {batchStart batchEnd next : Nat}
    (h : Inv call s) (hcaller : s.caller = .spawning batchStart batchEnd next)
    (hstep : callerStep call s outcome = some s') : Inv call s' := by
  obtain ⟨hplaced, hbegun, hended, halive, hbatch⟩ := h
  rw [hcaller] at hplaced hbegun hended hbatch
  rw [unjoined, hcaller] at halive hbatch
  obtain ⟨hbegins, hend, hle, hnext⟩ := hplaced
  simp only [callerStep, hcaller] at hstep
  by_cases hlt : next < batchEnd
  · rw [if_pos hlt] at hstep
    cases outcome with
    | returns =>
        simp only [Option.some.injEq] at hstep
        subst hstep
        refine ⟨⟨hbegins, hend, by omega, hlt⟩, ?_, hended, ?_, ?_⟩
        · rw [handed, List.range_succ, ← List.append_assoc]
          exact hbegun.append_right _
        · intro i hi
          simp only [unjoined, List.mem_append, List.mem_singleton] at hi ⊢
          obtain (hi | hi) | hi := hi
          · exact .inl (halive i (List.mem_append_left _ hi))
          · exact .inr hi
          · exact .inl (halive i (List.mem_append_right _ hi))
        · intro i hi
          simp only [unjoined, List.mem_append, List.mem_singleton] at hi
          obtain hi | rfl := hi
          · exact hbatch i hi
          · exact hle
    | throws =>
        simp only [Option.some.injEq] at hstep
        subst hstep
        exact ⟨⟨hbegins, hend, hle, hnext⟩, hbegun, hended, halive, hbatch⟩
  · rw [if_neg hlt, Option.some.injEq] at hstep
    subst hstep
    exact ⟨⟨hbegins, hend, hle, hnext⟩, hbegun, hended, halive, hbatch⟩

/-- The loop over what is left of a batch runs the next task, or ends. -/
theorem Inv.fallback {s s' : BatchState} {outcome : Outcome} {batchStart batchEnd next : Nat}
    (h : Inv call s) (hcaller : s.caller = .fallback batchStart batchEnd next)
    (hstep : callerStep call s outcome = some s') : Inv call s' := by
  obtain ⟨hplaced, hbegun, hended, halive, hbatch⟩ := h
  rw [hcaller] at hplaced hbegun hended hbatch
  rw [unjoined, hcaller] at halive hbatch
  obtain ⟨hbegins, hend, hle, hnext⟩ := hplaced
  simp only [callerStep, hcaller] at hstep
  by_cases hlt : next < batchEnd
  · rw [if_pos hlt, Option.some.injEq] at hstep
    subst hstep
    refine ⟨⟨hbegins, hend, hle, hlt⟩, ?_, ?_, halive, hbatch⟩
    · rw [handed, List.range_succ]
      have hmoved : (s.begun ++ [next] ++ s.waiting).Perm (s.begun ++ s.waiting ++ [next]) := by
        rw [List.append_assoc, List.append_assoc]
        exact List.perm_append_comm.append_left _
      exact hmoved.trans (hbegun.append_right _)
    · have hnone : own (.fallback batchStart batchEnd next) = [] := rfl
      rw [hnone, List.append_nil] at hended
      exact hended.append_right _
  · rw [if_neg hlt, Option.some.injEq] at hstep
    subst hstep
    have hat : next = min (batchStart + call.size) call.count := by omega
    exact ⟨hbegins, by rwa [handed, hat] at hbegun, hended, halive, hbatch⟩

/-- A task run by the calling thread ends. -/
theorem Inv.calling {s s' : BatchState} {outcome : Outcome} {batchStart batchEnd next : Nat}
    (h : Inv call s) (hcaller : s.caller = .calling batchStart batchEnd next)
    (hstep : callerStep call s outcome = some s') : Inv call s' := by
  obtain ⟨hplaced, hbegun, hended, halive, hbatch⟩ := h
  rw [hcaller] at hplaced hbegun hended hbatch
  rw [unjoined, hcaller] at halive hbatch
  obtain ⟨hbegins, hend, hle, hnext⟩ := hplaced
  simp only [callerStep, hcaller, runGuarded_eq, Option.some.injEq] at hstep
  subst hstep
  refine ⟨⟨hbegins, hend, by omega, hnext⟩, hbegun, ?_, halive, hbatch⟩
  have hmoved : (s.ended ++ [next] ++ s.running ++ []).Perm
      (s.ended ++ s.running ++ [next]) := by
    rw [List.append_nil, List.append_assoc, List.append_assoc]
    exact List.perm_append_comm.append_left _
  exact hmoved.trans hended

section Fitting

variable (hfits : Fits call)
include hfits

/-- The end of a batch, and that it can be reserved. -/
theorem Fits.batch {batchStart : Nat} (h : Begins call batchStart) :
    addSize platform batchStart call.size = batchStart + call.size ∧
      subSize platform (min (batchStart + call.size) call.count) batchStart ≤
        platform.maxReserve := by
  have hlt := hfits.ends batchStart h.1 h.2
  have hreserve := hfits.reserve
  have hcount := call.count_lt
  have hbegins := h.2
  have hpos := call.size_pos
  rw [subSize_of_le (by omega) (by omega)]
  exact ⟨addSize_of_lt hlt, by omega⟩

/-- The loop over the batches takes the next one, or ends. -/
theorem Inv.looping {s s' : BatchState} {outcome : Outcome} {batchStart : Nat} (h : Inv call s)
    (hcaller : s.caller = .looping batchStart) (hstep : callerStep call s outcome = some s') :
    Inv call s' := by
  have hidle := h.idle (by rw [unjoined, hcaller])
  obtain ⟨hplaced, hbegun, hended, -, -⟩ := h
  rw [hcaller] at hplaced hbegun hended
  simp only [callerStep, hcaller] at hstep
  by_cases hlt : batchStart < call.count
  · obtain ⟨hend, hreserve⟩ := hfits.batch ⟨hplaced, hlt⟩
    rw [if_pos hlt, hend, if_pos hreserve, Option.some.injEq] at hstep
    subst hstep
    have hpos := call.size_pos
    refine ⟨⟨⟨hplaced, hlt⟩, rfl, Nat.le_refl _, by omega⟩, ?_, hended, ?_, ?_⟩
    · rwa [handed, Nat.min_eq_left (Nat.le_of_lt hlt)] at hbegun
    · simp [hidle]
    · simp [unjoined]
  · rw [if_neg hlt, Option.some.injEq] at hstep
    subst hstep
    refine ⟨trivial, ?_, hended, ?_, ?_⟩
    · rwa [handed, Nat.min_eq_right (Nat.le_of_not_lt hlt)] at hbegun
    · simp [hidle]
    · simp [unjoined]

/-- The next thread of the batch is joined, or none is left. -/
theorem Inv.joining {s s' : BatchState} {outcome : Outcome} {batchStart : Nat} {left : List Nat}
    (h : Inv call s) (hcaller : s.caller = .joining batchStart left)
    (hstep : callerStep call s outcome = some s') : Inv call s' := by
  obtain ⟨hplaced, hbegun, hended, halive, hbatch⟩ := h
  rw [hcaller] at hplaced hbegun hended hbatch
  rw [unjoined, hcaller] at halive hbatch
  cases left with
  | nil =>
      simp only [callerStep, hcaller, (hfits.batch hplaced).1, Option.some.injEq] at hstep
      subst hstep
      exact ⟨Nat.dvd_add hplaced.1 (Nat.dvd_refl _), hbegun, hended, halive,
        fun i hi => absurd hi List.not_mem_nil⟩
  | cons index left =>
      simp only [callerStep, hcaller, Option.ite_none_left_eq_some, Option.some.injEq,
        not_or] at hstep
      obtain ⟨⟨hwaiting, hrunning⟩, rfl⟩ := hstep
      refine ⟨hplaced, hbegun, hended, ?_, ?_⟩
      · intro i hi
        have hin := List.mem_cons.mp (halive i hi)
        refine hin.resolve_left ?_
        rintro rfl
        exact (List.mem_append.mp hi).elim hwaiting hrunning
      · exact fun i hi => hbatch i (List.mem_cons_of_mem _ hi)

/-- The calling thread takes a step. -/
theorem Inv.caller {s s' : BatchState} {outcome : Outcome} (h : Inv call s)
    (hstep : callerStep call s outcome = some s') : Inv call s' := by
  cases hcaller : s.caller with
  | looping batchStart => exact Inv.looping hfits h hcaller hstep
  | spawning batchStart batchEnd next => exact h.spawning hcaller hstep
  | fallback batchStart batchEnd next => exact h.fallback hcaller hstep
  | calling batchStart batchEnd next => exact h.calling hcaller hstep
  | joining batchStart left => exact Inv.joining hfits h hcaller hstep
  | returned => simp [callerStep, hcaller] at hstep
  | raised => simp [callerStep, hcaller] at hstep

/-- One step keeps the invariant. -/
theorem Inv.of_step {s s' : BatchState} {e : Event} (h : Inv call s)
    (hstep : step call s e = some s') : Inv call s' := by
  cases e with
  | caller outcome => exact Inv.caller hfits h hstep
  | begins index => exact h.begins hstep
  | ends index outcome => exact h.ends hstep

end Fitting

/-! ## what the invariant says -/

/-- What is handed out of a batch is a part of it. -/
theorem handed_sub_first_le {caller : Caller} (hplaced : Placed call caller) :
    handed call caller - first call caller ≤ call.size := by
  cases caller with
  | looping batchStart => simp [handed, first]
  | spawning batchStart batchEnd next =>
      obtain ⟨-, hend, -, hnext⟩ := hplaced
      simp only [handed, first]
      omega
  | fallback batchStart batchEnd next =>
      obtain ⟨-, hend, -, hnext⟩ := hplaced
      simp only [handed, first]
      omega
  | calling batchStart batchEnd next =>
      obtain ⟨-, hend, -, hnext⟩ := hplaced
      simp only [handed, first]
      omega
  | joining batchStart left =>
      simp only [handed, first]
      omega
  | returned => simp [handed, first]
  | raised => simp [handed, first]

/-- The calling thread's own task is of the batch. -/
theorem first_le_of_mem_own {caller : Caller} {i : Nat} (hplaced : Placed call caller)
    (hi : i ∈ own caller) : first call caller ≤ i := by
  cases caller with
  | calling batchStart batchEnd next =>
      rw [own, List.mem_singleton] at hi
      exact hi ▸ hplaced.2.2.1
  | _ => exact absurd hi List.not_mem_nil

/-- What is outstanding is a part of the batch. -/
theorem Inv.outstanding_le {s : BatchState} (h : Inv call s) : s.outstanding ≤ call.size := by
  have hnodup : (s.begun ++ s.waiting).Nodup := h.begun.nodup_iff.mpr List.nodup_range
  have hall : (s.ended ++ (s.running ++ own s.caller ++ s.waiting)).Perm
      (s.begun ++ s.waiting) := by
    rw [← List.append_assoc, ← List.append_assoc]
    exact h.ended.append_right _
  have hgoing : (s.running ++ own s.caller ++ s.waiting).Nodup :=
    (List.nodup_append.mp (hall.nodup_iff.mpr hnodup)).2.1
  have hfirst : ∀ i ∈ s.running ++ own s.caller ++ s.waiting, first call s.caller ≤ i := by
    intro i hi
    simp only [List.mem_append] at hi
    obtain (hi | hi) | hi := hi
    · exact h.batch i (h.alive i (List.mem_append_right _ hi))
    · exact first_le_of_mem_own h.placed hi
    · exact h.batch i (h.alive i (List.mem_append_left _ hi))
  have hhanded : ∀ i ∈ s.running ++ own s.caller ++ s.waiting, i < handed call s.caller := by
    intro i hi
    have hin := (h.begun.mem_iff).mp (hall.mem_iff.mp (List.mem_append_right _ hi))
    exact List.mem_range.mp hin
  have hsub : s.running ++ own s.caller ++ s.waiting ⊆
      List.range' (first call s.caller) (handed call s.caller - first call s.caller) := by
    intro i hi
    rw [List.mem_range'_1]
    have hlow := hfirst i hi
    have hhigh := hhanded i hi
    omega
  have hsize := handed_sub_first_le h.placed
  have hlength := (List.subperm_of_subset hgoing hsub).length_le
  rw [List.length_range', List.length_append, List.length_append] at hlength
  unfold BatchState.outstanding
  omega

/-- A call that has returned has done everything. -/
theorem Inv.complete {s : BatchState} (h : Inv call s) (hreturned : s.caller = .returned) :
    s.begun.Perm (List.range call.count) ∧ s.ended.Perm (List.range call.count) ∧
      s.waiting = [] ∧ s.running = [] := by
  obtain ⟨hwaiting, hrunning⟩ := h.idle (by rw [unjoined, hreturned])
  have hbegun := h.begun
  have hended := h.ended
  rw [hreturned, hwaiting, List.append_nil] at hbegun
  rw [hreturned, hrunning, List.append_nil] at hended
  have hnone : own .returned = [] := rfl
  rw [hnone, List.append_nil] at hended
  exact ⟨hbegun, hended.trans hbegun, hwaiting, hrunning⟩

/-- Until the call has returned something can happen: what the calling thread
waits for, at least. -/
theorem Inv.progress {s : BatchState} (h : Inv call s) :
    s.caller = .returned ∨ ∃ e s', step call s e = some s' := by
  have hplaced := h.placed
  cases hcaller : s.caller with
  | looping batchStart =>
      refine .inr ⟨.caller .returns, ?_⟩
      simp only [step, callerStep, hcaller]
      split
      · split <;> exact ⟨_, rfl⟩
      · exact ⟨_, rfl⟩
  | spawning batchStart batchEnd next =>
      refine .inr ⟨.caller .returns, ?_⟩
      simp only [step, callerStep, hcaller]
      split <;> exact ⟨_, rfl⟩
  | fallback batchStart batchEnd next =>
      refine .inr ⟨.caller .returns, ?_⟩
      simp only [step, callerStep, hcaller]
      split <;> exact ⟨_, rfl⟩
  | calling batchStart batchEnd next =>
      refine .inr ⟨.caller .returns, ?_⟩
      simp only [step, callerStep, hcaller, runGuarded_eq]
      exact ⟨_, rfl⟩
  | joining batchStart left =>
      cases left with
      | nil =>
          refine .inr ⟨.caller .returns, ?_⟩
          simp only [step, callerStep, hcaller]
          exact ⟨_, rfl⟩
      | cons index left =>
          by_cases hwaiting : index ∈ s.waiting
          · exact .inr ⟨.begins index, _, if_pos hwaiting⟩
          · by_cases hrunning : index ∈ s.running
            · exact .inr ⟨.ends index .returns, _, if_pos hrunning⟩
            · refine .inr ⟨.caller .returns, ?_⟩
              simp only [step, callerStep, hcaller, hwaiting, hrunning, or_self, if_false]
              exact ⟨_, rfl⟩
  | returned => exact .inl rfl
  | raised =>
      rw [hcaller] at hplaced
      exact absurd hplaced id

/-! ## the length of a run -/

/-- How far the calling thread is from the next index it hands out. -/
def phase : Caller → Nat
  | .looping _ => 10
  | .spawning batchStart _ next => if next = batchStart then 9 else 14
  | .fallback batchStart _ next => if next = batchStart then 8 else 12
  | .calling .. => 13
  | .joining .. => 11
  | .returned => 0
  | .raised => 0

/-- What is left to do, each index for more than its thread takes. -/
def remaining (call : Call platform) (s : BatchState) : Nat :=
  16 * (call.count - handed call s.caller) + 2 * s.waiting.length + s.running.length +
    (unjoined s).length + phase s.caller

theorem remaining_caller (hfits : Fits call) {s s' : BatchState} {outcome : Outcome}
    (h : Inv call s) (hstep : callerStep call s outcome = some s') :
    remaining call s' < remaining call s := by
  have hplaced := h.placed
  unfold remaining
  cases hcaller : s.caller with
  | looping batchStart =>
      rw [hcaller] at hplaced
      simp only [callerStep, hcaller] at hstep
      by_cases hlt : batchStart < call.count
      · obtain ⟨hend, hreserve⟩ := hfits.batch ⟨hplaced, hlt⟩
        rw [if_pos hlt, hend, if_pos hreserve, Option.some.injEq] at hstep
        subst hstep
        simp only [handed, unjoined, phase, hcaller, if_true, List.length_nil]
        omega
      · rw [if_neg hlt, Option.some.injEq] at hstep
        subst hstep
        simp only [handed, unjoined, phase, hcaller, List.length_nil]
        omega
  | spawning batchStart batchEnd next =>
      rw [hcaller] at hplaced
      obtain ⟨hbegins, hend, hle, hnext⟩ := hplaced
      simp only [callerStep, hcaller] at hstep
      by_cases hlt : next < batchEnd
      · rw [if_pos hlt] at hstep
        cases outcome with
        | returns =>
            simp only [Option.some.injEq] at hstep
            subst hstep
            simp only [handed, unjoined, phase, hcaller, List.length_append,
              List.length_singleton]
            split <;> split <;> omega
        | throws =>
            simp only [Option.some.injEq] at hstep
            subst hstep
            simp only [handed, unjoined, phase, hcaller]
            split <;> omega
      · rw [if_neg hlt, Option.some.injEq] at hstep
        subst hstep
        simp only [handed, unjoined, phase, hcaller]
        split <;> omega
  | fallback batchStart batchEnd next =>
      rw [hcaller] at hplaced
      obtain ⟨hbegins, hend, hle, hnext⟩ := hplaced
      simp only [callerStep, hcaller] at hstep
      by_cases hlt : next < batchEnd
      · rw [if_pos hlt, Option.some.injEq] at hstep
        subst hstep
        simp only [handed, unjoined, phase, hcaller]
        split <;> omega
      · rw [if_neg hlt, Option.some.injEq] at hstep
        subst hstep
        -- the batch is not empty
        have hbegun := hbegins.2
        have hpos := call.size_pos
        simp only [handed, unjoined, phase, hcaller]
        split <;> omega
  | calling batchStart batchEnd next =>
      rw [hcaller] at hplaced
      obtain ⟨hbegins, hend, hle, hnext⟩ := hplaced
      simp only [callerStep, hcaller, runGuarded_eq, Option.some.injEq] at hstep
      subst hstep
      simp only [handed, unjoined, phase, hcaller]
      split <;> omega
  | joining batchStart left =>
      rw [hcaller] at hplaced
      cases left with
      | nil =>
          simp only [callerStep, hcaller, (hfits.batch hplaced).1, Option.some.injEq] at hstep
          subst hstep
          simp only [handed, unjoined, phase, hcaller, List.length_nil]
          omega
      | cons index left =>
          simp only [callerStep, hcaller, Option.ite_none_left_eq_some, Option.some.injEq] at hstep
          obtain ⟨-, rfl⟩ := hstep
          simp only [handed, unjoined, phase, hcaller, List.length_cons]
          omega
  | returned => simp [callerStep, hcaller] at hstep
  | raised => simp [callerStep, hcaller] at hstep

/-- Every step leaves less to do. -/
theorem remaining_lt (hfits : Fits call) {s s' : BatchState} {e : Event} (h : Inv call s)
    (hstep : step call s e = some s') : remaining call s' < remaining call s := by
  cases e with
  | caller outcome => exact remaining_caller hfits h hstep
  | begins index =>
      simp only [step, Option.ite_none_right_eq_some, Option.some.injEq] at hstep
      obtain ⟨hwaiting, rfl⟩ := hstep
      have hlength := List.length_erase_of_mem hwaiting
      have hpos := List.length_pos_of_mem hwaiting
      show 16 * (call.count - handed call s.caller) + 2 * (s.waiting.erase index).length +
        (s.running ++ [index]).length + (unjoined s).length + phase s.caller < remaining call s
      rw [hlength, List.length_append, List.length_singleton]
      unfold remaining
      omega
  | ends index outcome =>
      simp only [step, runGuarded_eq, Option.ite_none_right_eq_some, Option.some.injEq] at hstep
      obtain ⟨hrunning, rfl⟩ := hstep
      have hlength := List.length_erase_of_mem hrunning
      have hpos := List.length_pos_of_mem hrunning
      show 16 * (call.count - handed call s.caller) + 2 * s.waiting.length +
        (s.running.erase index).length + (unjoined s).length + phase s.caller < remaining call s
      rw [hlength]
      unfold remaining
      omega

/-- Where it fits, every task is run once. -/
theorem runsEveryTaskOnce_of_fits (hfits : Fits call) : RunsEveryTaskOnce call := by
  have hinv : ∀ {es s}, run (step call) start es = some s → Inv call s := fun hrun =>
    invariant (I := Inv call) (fun h hs => h.of_step hfits hs) inv_start hrun
  have hvariant : ∀ {s e s'}, Inv call s → step call s e = some s' →
      Inv call s' ∧ remaining call s' < remaining call s := fun h hs =>
    ⟨h.of_step hfits hs, remaining_lt hfits h hs⟩
  refine ⟨?_, fun hrun => (hinv hrun).outstanding_le, fun hrun => (hinv hrun).complete,
    ⟨remaining call start, ?_⟩, fun hrun => (hinv hrun).progress⟩
  · intro es s hrun
    have h := hinv hrun
    have hnodup : (s.begun ++ s.waiting).Nodup := h.begun.nodup_iff.mpr List.nodup_range
    refine ⟨(List.nodup_append.mp hnodup).1, ?_⟩
    intro i hi
    have hbelow := List.mem_range.mp (h.begun.mem_iff.mp (List.mem_append_left _ hi))
    have hhanded : handed call s.caller ≤ call.count := by
      have hplaced := h.placed
      cases hcaller : s.caller with
      | looping batchStart => exact Nat.min_le_right _ _
      | spawning batchStart batchEnd next =>
          rw [hcaller] at hplaced
          exact Nat.le_trans hplaced.2.2.2 (hplaced.2.1 ▸ Nat.min_le_right _ _)
      | fallback batchStart batchEnd next =>
          rw [hcaller] at hplaced
          exact Nat.le_trans hplaced.2.2.2 (hplaced.2.1 ▸ Nat.min_le_right _ _)
      | calling batchStart batchEnd next =>
          rw [hcaller] at hplaced
          exact Nat.le_trans hplaced.2.2.2 (hplaced.2.1 ▸ Nat.min_le_right _ _)
      | joining batchStart left => exact Nat.min_le_right _ _
      | returned => exact Nat.le_refl _
      | raised => exact Nat.zero_le _
    exact Nat.lt_of_lt_of_le hbelow hhanded
  · intro es s hrun
    have hlength := length_le_of_variant hvariant inv_start hrun
    omega

/-! ## where it does not fit -/

/-- A run leads from one state to another. -/
def Leads (call : Call platform) (s s' : BatchState) : Prop := ∃ es, run (step call) s es = some s'

theorem Leads.trans {s m s' : BatchState} (h : Leads call s m) (h' : Leads call m s') :
    Leads call s s' := by
  obtain ⟨es, hes⟩ := h
  obtain ⟨fs, hfs⟩ := h'
  exact ⟨es ++ fs, run_append_eq_some_iff.mpr ⟨m, hes, hfs⟩⟩

theorem Leads.next {s s' : BatchState} {outcome : Outcome}
    (h : callerStep call s outcome = some s') : Leads call s s' :=
  ⟨[.caller outcome], run_cons_eq_some_iff.mpr ⟨s', h, rfl⟩⟩

/-- The calling thread runs what is left of a batch by itself. -/
theorem leads_fallback {s : BatchState} {batchStart batchEnd next : Nat} (hle : next ≤ batchEnd)
    (hcaller : s.caller = .fallback batchStart batchEnd next) :
    ∃ s', Leads call s s' ∧ s'.caller = .fallback batchStart batchEnd batchEnd ∧
      s'.batch = s.batch ∧ s'.begun = s.begun ++ List.range' next (batchEnd - next) := by
  induction hn : batchEnd - next generalizing s next with
  | zero =>
      obtain rfl : next = batchEnd := by omega
      exact ⟨s, ⟨[], rfl⟩, hcaller, rfl, by simp⟩
  | succ n ih =>
      have hlt : next < batchEnd := by omega
      have hfirst : callerStep call s .returns = some { s with
          caller := .calling batchStart batchEnd next, begun := s.begun ++ [next] } := by
        simp only [callerStep, hcaller, if_pos hlt]
      have hsecond : callerStep call { s with
          caller := .calling batchStart batchEnd next, begun := s.begun ++ [next] } .returns =
          some { s with
            caller := .fallback batchStart batchEnd (next + 1)
            begun := s.begun ++ [next]
            ended := s.ended ++ [next] } := rfl
      have hrest : next + 1 ≤ batchEnd := hlt
      obtain ⟨s', hleads, hs', hbatch, hbegun⟩ := ih (s := { s with
        caller := .fallback batchStart batchEnd (next + 1)
        begun := s.begun ++ [next]
        ended := s.ended ++ [next] }) hrest rfl (by omega)
      refine ⟨s', ((Leads.next hfirst).trans (Leads.next hsecond)).trans hleads, hs', hbatch, ?_⟩
      rw [hbegun, List.range'_succ, List.append_assoc, List.singleton_append]

/-- The start of a batch whose first thread does not start. -/
theorem leads_batchStart {s : BatchState} {batchStart : Nat} (hlt : batchStart < call.count)
    (hend : batchStart + call.size < platform.sizeModulus)
    (hreserve : call.size ≤ platform.maxReserve) (hcaller : s.caller = .looping batchStart) :
    Leads call s { s with
      caller := .fallback batchStart (min (batchStart + call.size) call.count) batchStart
      batch := [] } := by
  have hpos := call.size_pos
  have hcount := call.count_lt
  have hfirst : callerStep call s .returns = some { s with
      caller := .spawning batchStart (min (batchStart + call.size) call.count) batchStart
      batch := [] } := by
    simp only [callerStep, hcaller]
    rw [if_pos hlt, addSize_of_lt hend, subSize_of_le (by omega) (by omega), if_pos (by omega)]
  have hsecond : callerStep call { s with
      caller := .spawning batchStart (min (batchStart + call.size) call.count) batchStart
      batch := [] } .throws = some { s with
        caller := .fallback batchStart (min (batchStart + call.size) call.count) batchStart
        batch := [] } := by
    simp only [callerStep]
    rw [if_pos (by omega)]
  exact (Leads.next hfirst).trans (Leads.next hsecond)

/-- A batch the calling thread runs by itself. -/
theorem leads_batch {s : BatchState} {batchStart : Nat}
    (hend : batchStart + call.size < platform.sizeModulus)
    (hwithin : batchStart + call.size ≤ call.count)
    (hreserve : call.size ≤ platform.maxReserve) (hcaller : s.caller = .looping batchStart) :
    ∃ s', Leads call s s' ∧ s'.caller = .looping (batchStart + call.size) ∧
      s'.begun = s.begun ++ List.range' batchStart call.size := by
  have hpos := call.size_pos
  have hstart := leads_batchStart (by omega) hend hreserve hcaller
  rw [Nat.min_eq_left hwithin] at hstart
  obtain ⟨m, hfallback, hm, hbatch, hbegun⟩ := @leads_fallback _ call { s with
      caller := .fallback batchStart (batchStart + call.size) batchStart
      batch := [] } _ _ _ (Nat.le_add_right batchStart call.size) rfl
  have hjoin : callerStep call m .returns =
      some { m with caller := .joining batchStart [] } := by
    simp only [callerStep, hm, Nat.lt_irrefl, if_false, hbatch]
  have hnext : callerStep call { m with caller := .joining batchStart [] } .returns =
      some { m with caller := .looping (batchStart + call.size) } := by
    simp only [callerStep, addSize_of_lt hend]
  refine ⟨_, ((hstart.trans hfallback).trans (Leads.next hjoin)).trans (Leads.next hnext), rfl, ?_⟩
  rw [hbegun, Nat.add_sub_cancel_left]

/-- A batch whose end wraps runs nothing, and the next one starts before it. -/
theorem leads_wrapped {s : BatchState} {batchStart : Nat} (hlt : batchStart < call.count)
    (hend : platform.sizeModulus ≤ batchStart + call.size)
    (hreserve : call.size ≤ platform.maxReserve) (hcaller : s.caller = .looping batchStart) :
    Leads call s { s with
      caller := .looping (batchStart + call.size - platform.sizeModulus), batch := [] } := by
  have hsize := call.size_lt
  have hcount := call.count_lt
  have hadd : addSize platform batchStart call.size =
      batchStart + call.size - platform.sizeModulus := by
    rw [addSize, Nat.mod_eq_sub_mod hend, Nat.mod_eq_of_lt (by omega)]
  have hfirst : callerStep call s .returns = some { s with
      caller := .spawning batchStart (batchStart + call.size - platform.sizeModulus) batchStart
      batch := [] } := by
    simp only [callerStep, hcaller]
    rw [if_pos hlt, hadd, Nat.min_eq_left (by omega), subSize_of_lt (by omega) (by omega),
      if_pos (by omega)]
  have hsecond : callerStep call { s with
      caller := .spawning batchStart (batchStart + call.size - platform.sizeModulus) batchStart
      batch := [] } .returns = some { s with
        caller := .fallback batchStart (batchStart + call.size - platform.sizeModulus) batchStart
        batch := [] } := by
    simp only [callerStep]
    rw [if_neg (by omega)]
  have hjoin : callerStep call { s with
      caller := .fallback batchStart (batchStart + call.size - platform.sizeModulus) batchStart
      batch := [] } .returns = some { s with caller := .joining batchStart [], batch := [] } := by
    simp only [callerStep]
    rw [if_neg (by omega)]
  have hnext : callerStep call { s with caller := .joining batchStart [], batch := [] } .returns =
      some { s with
        caller := .looping (batchStart + call.size - platform.sizeModulus), batch := [] } := by
    simp only [callerStep, hadd]
  exact (((Leads.next hfirst).trans (Leads.next hsecond)).trans (Leads.next hjoin)).trans
    (Leads.next hnext)

/-- From the head of a loop that has gone back, some index is run again. -/
theorem leads_rerun (hreserve : call.size ≤ platform.maxReserve) {s : BatchState}
    {batchStart : Nat} (hlt : batchStart < call.count) (hcaller : s.caller = .looping batchStart)
    (hbegun : ∀ i, i ≤ batchStart → i ∈ s.begun) :
    ∃ s', Leads call s s' ∧ ¬ s'.begun.Nodup := by
  have hsize := call.size_lt
  have hcount := call.count_lt
  have hpos := call.size_pos
  induction batchStart using Nat.strongRecOn generalizing s with
  | ind batchStart ih =>
      by_cases hend : batchStart + call.size < platform.sizeModulus
      · have hstart := leads_batchStart hlt hend hreserve hcaller
        have hcall : callerStep call { s with
            caller := .fallback batchStart (min (batchStart + call.size) call.count) batchStart
            batch := [] } .returns = some { s with
              caller := .calling batchStart (min (batchStart + call.size) call.count) batchStart
              batch := []
              begun := s.begun ++ [batchStart] } := by
          simp only [callerStep]
          rw [if_pos (by omega)]
        refine ⟨_, hstart.trans (Leads.next hcall), ?_⟩
        intro hnodup
        have hdisjoint := (List.nodup_append.mp hnodup).2.2
        exact hdisjoint batchStart (hbegun batchStart (Nat.le_refl _)) batchStart (by simp) rfl
      · have hwrapped := leads_wrapped hlt (Nat.le_of_not_lt hend) hreserve hcaller
        obtain ⟨s', hleads, hs'⟩ := ih _ (by omega) (by omega) rfl
          (fun i hi => hbegun i (by omega)) (s := { s with
            caller := .looping (batchStart + call.size - platform.sizeModulus), batch := [] })
        exact ⟨s', hwrapped.trans hleads, hs'⟩

/-- Batches before the first whose end wraps run one after another. -/
theorem leads_batches (hreserve : call.size ≤ platform.maxReserve) (k : Nat)
    (hwithin : call.size * k ≤ call.count) :
    ∃ s, Leads call start s ∧ s.caller = .looping (call.size * k) ∧
      s.begun = List.range (call.size * k) := by
  induction k with
  | zero => exact ⟨start, ⟨[], rfl⟩, rfl, rfl⟩
  | succ k ih =>
      rw [Nat.mul_succ] at hwithin ⊢
      have hcount := call.count_lt
      obtain ⟨m, hleads, hm, hbegun⟩ := ih (by omega)
      obtain ⟨s, hbatch, hs, hmore⟩ := leads_batch (by omega) hwithin hreserve hm
      refine ⟨s, hleads.trans hbatch, hs, ?_⟩
      rw [hmore, hbegun, List.range_eq_range', List.range_eq_range']
      have happend := List.range'_append_1 (s := 0) (m := call.size * k) (n := call.size)
      rwa [Nat.zero_add] at happend

/-- A call whose first batch cannot be reserved ends in an exception. -/
theorem Fits.reserve_of_runs (h : RunsEveryTaskOnce call) :
    min call.size call.count ≤ platform.maxReserve := by
  by_contra hreserve
  have hcount := call.count_lt
  have hsize := call.size_lt
  have hraised : callerStep call start .returns = some { start with caller := .raised } := by
    simp only [callerStep, start]
    rw [if_pos (by omega), addSize_of_lt (by omega), Nat.zero_add,
      subSize_of_le (Nat.zero_le _) (by omega), if_neg (by omega)]
  have hrun : run (step call) start [.caller .returns] = some { start with caller := .raised } :=
    run_cons_eq_some_iff.mpr ⟨_, hraised, rfl⟩
  obtain hreturned | ⟨e, s', hstep⟩ := h.progress hrun
  · contradiction
  · cases e with
    | caller outcome => simp [step, callerStep] at hstep
    | begins index => simp [step, start] at hstep
    | ends index outcome => simp [step, start] at hstep

/-- Every task is run once exactly where the batches fit. -/
theorem runsEveryTaskOnce_iff : RunsEveryTaskOnce call ↔ Fits call := by
  refine ⟨fun h => ⟨Fits.reserve_of_runs h, ?_⟩, runsEveryTaskOnce_of_fits⟩
  intro batchStart hdvd hlt
  obtain ⟨k, rfl⟩ := hdvd
  by_contra hend
  have hsize := call.size_lt
  have hcount := call.count_lt
  have hpos := call.size_pos
  have hk : 0 < k := by
    refine Nat.pos_of_ne_zero ?_
    rintro rfl
    omega
  have hle : call.size ≤ call.size * k := Nat.le_mul_of_pos_right _ hk
  have hreserve : call.size ≤ platform.maxReserve := by
    have hmin := Fits.reserve_of_runs h
    omega
  obtain ⟨m, hleads, hm, hbegun⟩ := leads_batches hreserve k (by omega)
  have hwrapped := leads_wrapped hlt (by omega) hreserve hm
  obtain ⟨s, hrerun, hs⟩ := leads_rerun hreserve (s := { m with
    caller := .looping (call.size * k + call.size - platform.sizeModulus), batch := [] })
    (by omega) rfl (fun i hi => by
      show i ∈ m.begun
      rw [hbegun, List.mem_range]
      omega)
  obtain ⟨es, hrun⟩ := (hleads.trans hwrapped).trans hrerun
  exact hs (h.once hrun).1

/-- A 64-bit platform: `max_size` is `PTRDIFF_MAX / sizeof(std::thread)`. -/
def platform64 : Platform where
  sizeModulus := 2 ^ 64
  maxReserve := (2 ^ 63 - 1) / 8
  one_lt := by decide

/-- A count that is one batch, too big to be reserved. -/
def hugeBatch : Call platform64 where
  count := 2 ^ 62
  batchSize := 2 ^ 62
  count_lt := by decide
  batchSize_lt := by decide

theorem not_runsEveryTaskOnce_hugeBatch : ¬ RunsEveryTaskOnce hugeBatch := by
  intro h
  exact absurd (Fits.reserve_of_runs h) (by decide)

end BoundedParallel

end DispatcharrPvr
