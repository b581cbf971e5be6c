import DispatcharrPvr.TimeshiftBuffer.Operations

/-!
# TimeshiftBuffer.Calls

The commands that an update, a release of a lock and a buffer's removal may come to.
-/

namespace DispatcharrPvr

namespace TimeshiftBuffer

open Interleaving Interleaving.Program

variable {Thread : Type} {C : Cmd Thread → Prop}

theorem calls_stopFfmpeg {process : ProcessId} {instance' : Option ProcessId}
    (hquery : ∀ q, C (.query q)) (hkill : ∀ kill, C (.killpg process instance' kill)) :
    (stopFfmpeg process instance' : Prog Thread Unit).Calls C := by
  have hawait : ∀ polls, (awaitExit process instance' polls : Prog Thread Unit).Calls C := by
    intro polls
    induction polls with
    | zero => exact calls_perform.mpr (hkill true)
    | succ polls ih =>
        refine Calls.bind (calls_perform.mpr (hquery _)) fun left => ?_
        split
        · refine Calls.bind (calls_perform.mpr (hquery _)) fun alive => ?_
          split
          · exact ih
          · trivial
        · exact calls_perform.mpr (hkill true)
  refine Calls.bind (calls_perform.mpr (hquery _)) fun ticks => ?_
  split
  · trivial
  · exact Calls.bind (calls_perform.mpr (hkill false)) fun _ => hawait _

theorem calls_releaseStartBufferLock [DecidableEq Thread] {name : LockName}
    {token : LockToken Thread} (hquery : ∀ q, C (.query q)) (hrelease : C (.releaseLock name token))
    (hdelete : C (.deleteLock name token)) : (releaseStartBufferLock name token).Calls C := by
  refine Calls.tryExcept (calls_perform.mpr hrelease) fun e => ?_
  split
  · refine Calls.bind (calls_perform.mpr (hquery _)) fun current => ?_
    split
    · exact calls_perform.mpr hdelete
    · trivial
  · trivial

theorem calls_tryUpdate {channelUuid : Text} {instance' : Option ProcessId}
    {mutate : BufferState → Prog Thread (Option BufferState)} (hquery : ∀ q, C (.query q))
    (hcas : ∀ expected new triesLeft, C (.casState channelUuid expected new instance' triesLeft))
    (hset : ∀ new, C (.setState channelUuid new .unguarded))
    (hmutate : ∀ old, (mutate old).Calls C) (tries : Nat) :
    (tryUpdate channelUuid mutate instance' tries).Calls C := by
  induction tries with
  | zero => trivial
  | succ tries ih =>
      refine Calls.bind (calls_perform.mpr (hquery _)) fun found => ?_
      cases found with
      | none => trivial
      | some old =>
          refine Calls.bind (hmutate old) fun changed => ?_
          cases changed with
          | none => trivial
          | some new =>
              refine Calls.bind (Calls.tryExcept (calls_perform.mpr (hcas old new _)) fun e => ?_)
                fun won => ?_
              · split
                · exact Calls.bind (calls_perform.mpr (hset new)) fun _ => trivial
                · trivial
              · split
                · trivial
                · exact ih

/-! ## a removal -/

/-- A step of this buffer's removal, or one that is about no buffer. -/
def Cmd.OfRemoval (state : BufferState) : Cmd Thread → Prop
  | .query _ | .acquireLock _ | .releaseLock .. | .deleteLock .. => True
  | .killpg _ instance' _ => instance' = some state.process
  | .moveAside path instance' => path = channelDir state ∧ instance' = some state.process
  | .cadState channelUuid _ process _ => channelUuid = state.channelUuid ∧ process = state.process
  | .deleteState channelUuid process => channelUuid = state.channelUuid ∧ process = state.process
  | _ => False

section Removal

variable {state : BufferState}

theorem calls_removeChannelFiles :
    (removeChannelFiles state : Prog Thread Unit).Calls (Cmd.OfRemoval state) :=
  Calls.bind (calls_perform.mpr ⟨rfl, rfl⟩) fun _ => trivial

theorem calls_teardownUntrackedBuffer [DecidableEq Thread] :
    (teardownUntrackedBuffer state : Prog Thread Bool).Calls (Cmd.OfRemoval state) := by
  refine Calls.bind (calls_perform.mpr trivial) fun found => ?_
  cases found with
  | none => trivial
  | some token =>
      refine Calls.tryFinally (Calls.bind (calls_perform.mpr trivial) fun current => ?_)
        (calls_releaseStartBufferLock (fun _ => trivial) trivial trivial)
      split
      · trivial
      · refine Calls.bind (calls_stopFfmpeg (fun _ => trivial) fun _ => rfl) fun _ => ?_
        refine Calls.bind calls_removeChannelFiles fun _ => ?_
        exact Calls.bind (calls_perform.mpr ⟨rfl, rfl⟩) fun _ => trivial

theorem calls_tryDelete (tries : Nat) :
    (tryDelete state.channelUuid state tries : Prog Thread Deletion).Calls
      (Cmd.OfRemoval state) := by
  induction tries with
  | zero => trivial
  | succ tries ih =>
      refine Calls.bind (calls_perform.mpr trivial) fun found => ?_
      cases found with
      | none => trivial
      | some current =>
          dsimp only
          split
          · trivial
          refine Calls.bind (Calls.tryExcept (calls_perform.mpr ⟨rfl, rfl⟩) fun e => ?_)
            fun won => ?_
          · split
            · exact Calls.bind (calls_perform.mpr ⟨rfl, rfl⟩) fun _ => trivial
            · trivial
          · split
            · trivial
            · exact ih

theorem calls_removeBuffer {outcome : Outcome} :
    (removeBuffer state outcome : Prog Thread Bool).Calls (Cmd.OfRemoval state) := by
  refine Calls.bind (calls_stopFfmpeg (fun _ => trivial) fun _ => rfl) fun _ => ?_
  refine Calls.bind calls_removeChannelFiles fun _ => ?_
  split
  · exact Calls.bind (calls_perform.mpr ⟨rfl, rfl⟩) fun _ => trivial
  · exact Calls.bind (calls_tryDelete _) fun _ => trivial

end Removal

end TimeshiftBuffer

end DispatcharrPvr
