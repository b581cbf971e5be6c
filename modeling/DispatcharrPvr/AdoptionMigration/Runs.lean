import DispatcharrPvr.AdoptionMigration
import DispatcharrPvr.Lib.Runs
import Mathlib.Data.List.Induction

/-!
# AdoptionMigration.Runs

What the marking does over a whole run: which rules it ever sends a PATCH for,
with which name, and when a rule leaves the pending ones.  The tagging loop is
followed by the ids it has been through, the run by its events.
-/

namespace DispatcharrPvr

/-! ## the state file -/

theorem filterMap_pendingId {pending : List Int} (h : ∀ id ∈ pending, 0 < id ∧ id ≤ intMax) :
    (pending.map fun n => Json.numberUnsigned n.toNat).filterMap pendingId = pending := by
  induction pending with
  | nil => rfl
  | cons id pending ih =>
      obtain ⟨hpos, hmax⟩ := h id List.mem_cons_self
      have hid : pendingId (.numberUnsigned id.toNat) = some id := by
        simp only [pendingId]
        rw [if_pos (by omega)]
        congr 1
        omega
      rw [List.map_cons, List.filterMap_cons_some hid]
      exact congrArg _ (ih fun i hi => h i (List.mem_cons_of_mem _ hi))

/-- A saved state is read back as it was. -/
theorem parseAdoptionState_serializeAdoptionState {Text : Type} {dump : Json → Text}
    {parse : Text → Option Json} (hlibrary : ReadsBack dump parse)
    {state : RecurringRuleAdoptionState} (hknown : state.known = true)
    (hdone : state.done = true → state.pending = [])
    (hids : ∀ id ∈ state.pending, 0 < id ∧ id ≤ intMax) :
    parseAdoptionState parse (serializeAdoptionState dump state) = some state := by
  have hread := hlibrary state fun id hid => by
    have hpos := (hids id hid).1
    omega
  rw [parseAdoptionState, serializeAdoptionState, hread, Option.bind_some]
  obtain ⟨known, done, pending⟩ := state
  simp only at hknown hdone hids
  subst hknown
  have hpending : (if done then [] else
      (pending.map fun n => Json.numberUnsigned n.toNat).filterMap pendingId) = pending := by
    rw [filterMap_pendingId hids]
    cases done with
    | true => exact (hdone rfl).symm
    | false => rfl
  simp only [parseAdoptionDocument, adoptionDocument, fieldOrInt, Json.at?]
  simpa [intMax] using hpending

/-! ## the tagging loop -/

theorem find?_renameRule (id : Int) (name : ByteString) (rules : List RecurringRule) (j : Int) :
    (renameRule id name rules).find? (fun r => r.id == j) =
      (rules.find? fun r => r.id == j).map fun r => if j = id then { r with name } else r := by
  induction rules with
  | nil => rfl
  | cons r rest ih =>
      rw [renameRule]
      by_cases hid : r.id = id
      · by_cases hj : j = id
        · simp [hid, hj]
        · have hne : ¬ id = j := fun h => hj h.symm
          simp [hid, hj, hne]
      · rw [if_neg hid]
        by_cases hj : r.id = j
        · have hne : ¬ j = id := by
            rw [← hj]
            exact hid
          simp [hj, hne]
        · simp [hj, ih]

/-- The name a PATCH of the marking sends for a rule of the list. -/
def SendsTag (rules : List RecurringRule) (req : RuleRequest) : Prop :=
  ∃ rule, rules.find? (fun r => r.id == req.ruleId) = some rule ∧
    isManagedRuleName rule.name = false ∧
    req.patch.name = some (addManagedRuleMarker rule.name)

/-- A PATCH of the id since the `n`-th request ended the matter: it succeeded,
or the server refused it for good. -/
def Settled (answers : RuleAnswers) (log : List RuleRequest) (n : Nat) (id : Int) : Prop :=
  ∃ k req, n ≤ k ∧ log[k]? = some req ∧ req.ruleId = id ∧
    ((answers k req.before req.patch).outcome.isOk = true ∨
      classifyAdoptionPatchFailure (answers k req.before req.patch).httpStatus = .permanent)

theorem Settled.append {answers : RuleAnswers} {log : List RuleRequest} {n : Nat} {id : Int}
    (h : Settled answers log n id) (more : List RuleRequest) :
    Settled answers (log ++ more) n id := by
  obtain ⟨k, req, hk, hreq, hid, hanswer⟩ := h
  refine ⟨k, req, hk, ?_, hid, hanswer⟩
  have hlt : k < log.length := (List.getElem?_eq_some_iff.mp hreq).1
  rwa [List.getElem?_append_left hlt]

/-- The request just sent settles its id. -/
theorem settled_send {answers : RuleAnswers} {server : RuleServer} {id : Int}
    {patch : RecurringRuleEditPatch} {n : Nat} (hn : n ≤ server.log.length)
    (h : (server.answer answers id patch).outcome.isOk = true ∨
      classifyAdoptionPatchFailure (server.answer answers id patch).httpStatus = .permanent) :
    Settled answers (server.send answers id patch).log n id := by
  refine ⟨server.log.length, ⟨id, server.rules id, patch⟩, hn, ?_, rfl, h⟩
  simp

/-- The loop after the ids `tried`, on the rules `rules` of the cycle. -/
structure TagLoop (answers : RuleAnswers) (rules : List RecurringRule) (log : List RuleRequest)
    (deferred tried : List Int) (st : Tagging) : Prop where
  /-- a rule of the list keeps the name its tag is made from -/
  names : ∀ id rule, rules.find? (fun r => r.id == id) = some rule →
    ∃ r, st.rules.find? (fun r => r.id == id) = some r ∧
      addManagedRuleMarker r.name = addManagedRuleMarker rule.name
  sends : ∃ sent, st.server.log = log ++ sent ∧
    ∀ req ∈ sent, req.ruleId ∈ tried ∧ SendsTag rules req
  kept : ∀ id ∈ tried, id ∈ st.stillPending ∨ Settled answers st.server.log log.length id
  keepsDeferred : ∀ id ∈ deferred, id ∈ st.stillPending
  pending : ∀ id ∈ st.stillPending, id ∈ deferred ∨ id ∈ tried

theorem addManagedRuleMarker_idem (name : ByteString) :
    addManagedRuleMarker (addManagedRuleMarker name) = addManagedRuleMarker name := by
  rw [addManagedRuleMarker, if_pos (isManagedRuleName_addManagedRuleMarker name)]

/-- Everything the loop body can do with an id whose rule is there. -/
theorem tagRule_cases {answers : RuleAnswers} {now : Int} {st : Tagging} {id : Int}
    {rule : RecurringRule} (hrule : st.rules.find? (fun r => r.id == id) = some rule) :
    (tagRule answers now st id = { st with stillPending := st.stillPending ++ [id] }) ∨
    ((st.server.answer answers id (adoptionPatch rule now)).outcome.isOk = true ∧
      ∃ failures, tagRule answers now st id =
        { st with
          server := st.server.send answers id (adoptionPatch rule now)
          rules := renameRule id (addManagedRuleMarker rule.name) st.rules
          failures }) ∨
    (classifyAdoptionPatchFailure
        (st.server.answer answers id (adoptionPatch rule now)).httpStatus = .permanent ∧
      ∃ failures, tagRule answers now st id =
        { st with server := st.server.send answers id (adoptionPatch rule now), failures }) ∨
    ∃ failures, tagRule answers now st id =
      { st with
        server := st.server.send answers id (adoptionPatch rule now)
        failures
        stillPending := st.stillPending ++ [id] } := by
  by_cases hgaveUp : maxAdoptionRetriesPerSession ≤ st.failures id
  · exact .inl (by rw [tagRule, if_pos hgaveUp])
  · by_cases hok : (st.server.answer answers id (adoptionPatch rule now)).outcome.isOk = true
    · exact .inr (.inl ⟨hok, _, by simp [tagRule, hgaveUp, hrule, hok]; rfl⟩)
    · by_cases hpermanent : classifyAdoptionPatchFailure
          (st.server.answer answers id (adoptionPatch rule now)).httpStatus = .permanent
      · exact .inr (.inr (.inl ⟨hpermanent, _,
          by simp [tagRule, hgaveUp, hrule, hok, hpermanent]; rfl⟩))
      · exact .inr (.inr (.inr ⟨_, by simp [tagRule, hgaveUp, hrule, hok, hpermanent]; rfl⟩))

theorem TagLoop.next {answers : RuleAnswers} {rules : List RecurringRule} {log : List RuleRequest}
    {deferred tried : List Int} {st : Tagging} {id : Int}
    (h : TagLoop answers rules log deferred tried st) (now : Int) (hid : Unowned rules id) :
    TagLoop answers rules log deferred (tried ++ [id]) (tagRule answers now st id) := by
  obtain ⟨read, hread, hunowned⟩ := hid
  obtain ⟨rule, hrule, hname⟩ := h.names id read hread
  obtain ⟨sent, hlog, hsent⟩ := h.sends
  have hsends : SendsTag rules ⟨id, st.server.rules id, adoptionPatch rule now⟩ :=
    ⟨read, hread, hunowned, by simp [adoptionPatch, hname]⟩
  have hlength : log.length ≤ st.server.log.length := by
    rw [hlog, List.length_append]
    omega
  -- the log with one more request
  have hlogged : ∃ sent', (st.server.send answers id (adoptionPatch rule now)).log = log ++ sent' ∧
      ∀ req ∈ sent', req.ruleId ∈ tried ++ [id] ∧ SendsTag rules req := by
    refine ⟨sent ++ [⟨id, st.server.rules id, adoptionPatch rule now⟩], ?_, ?_⟩
    · rw [RuleServer.log_send, hlog, List.append_assoc]
    · intro req hreq
      rcases List.mem_append.mp hreq with hreq | hreq
      · exact ⟨List.mem_append_left _ (hsent req hreq).1, (hsent req hreq).2⟩
      · obtain rfl := List.mem_singleton.mp hreq
        exact ⟨by simp, hsends⟩
  have hkeptSent : ∀ i ∈ tried, i ∈ st.stillPending ∨
      Settled answers (st.server.send answers id (adoptionPatch rule now)).log log.length i := by
    intro i hi
    rcases h.kept i hi with hpending | hsettled
    · exact .inl hpending
    · rw [RuleServer.log_send]
      exact .inr (hsettled.append _)
  have hpending : ∀ i ∈ st.stillPending, i ∈ deferred ∨ i ∈ tried ++ [id] := by
    intro i hi
    rcases h.pending i hi with hdeferred | htried
    · exact .inl hdeferred
    · exact .inr (List.mem_append_left _ htried)
  have hstill : ∀ i ∈ st.stillPending ++ [id], i ∈ deferred ∨ i ∈ tried ++ [id] := by
    intro i hi
    rcases List.mem_append.mp hi with hi | hi
    · exact hpending i hi
    · exact .inr (List.mem_append_right _ hi)
  have hdeferred : ∀ i ∈ deferred, i ∈ st.stillPending ++ [id] :=
    fun i hi => List.mem_append_left _ (h.keepsDeferred i hi)
  rcases tagRule_cases hrule with hstep | ⟨hok, failures, hstep⟩ | ⟨hpermanent, failures, hstep⟩ |
    ⟨failures, hstep⟩
  · rw [hstep]
    refine ⟨h.names, ⟨sent, hlog, ?_⟩, ?_, hdeferred, hstill⟩
    · intro req hreq
      exact ⟨List.mem_append_left _ (hsent req hreq).1, (hsent req hreq).2⟩
    · intro i hi
      rcases List.mem_append.mp hi with hi | hi
      · exact (h.kept i hi).imp_left (List.mem_append_left _)
      · exact .inl (List.mem_append_right _ hi)
  · rw [hstep]
    refine ⟨?_, hlogged, ?_, h.keepsDeferred, hpending⟩
    · intro i r hr
      obtain ⟨r', hr', hname'⟩ := h.names i r hr
      refine ⟨_, by rw [find?_renameRule, hr']; rfl, ?_⟩
      by_cases hi : i = id
      · subst hi
        obtain rfl := Option.some.inj (hr'.symm.trans hrule)
        simp only [if_true]
        rw [addManagedRuleMarker_idem, hname']
      · simpa [hi] using hname'
    · intro i hi
      rcases List.mem_append.mp hi with hi | hi
      · exact hkeptSent i hi
      · obtain rfl := List.mem_singleton.mp hi
        exact .inr (settled_send hlength (.inl hok))
  · rw [hstep]
    refine ⟨h.names, hlogged, ?_, h.keepsDeferred, hpending⟩
    intro i hi
    rcases List.mem_append.mp hi with hi | hi
    · exact hkeptSent i hi
    · obtain rfl := List.mem_singleton.mp hi
      exact .inr (settled_send hlength (.inr hpermanent))
  · rw [hstep]
    refine ⟨h.names, hlogged, ?_, hdeferred, hstill⟩
    intro i hi
    rcases List.mem_append.mp hi with hi | hi
    · exact (hkeptSent i hi).imp_left (List.mem_append_left _)
    · exact .inl (List.mem_append_right _ hi)

/-- The whole loop, over ids whose rules are there and not owned. -/
theorem tagLoop_foldl (answers : RuleAnswers) (now : Int) (server : RuleServer)
    (failures : Int → Nat) (deferred : List Int) {rules : List RecurringRule} {toTag : List Int}
    (htoTag : ∀ id ∈ toTag, Unowned rules id) :
    TagLoop answers rules server.log deferred toTag
      (toTag.foldl (tagRule answers now) { server, rules, failures, stillPending := deferred }) := by
  have hrun := Runs.foldl_history
    (I := fun tried st => (∀ id ∈ tried, Unowned rules id) →
      TagLoop answers rules server.log deferred tried st)
    (s := { server, rules, failures, stillPending := deferred })
    (fun _ => ⟨fun id rule hrule => ⟨rule, hrule, rfl⟩, ⟨[], by simp, by simp⟩, by simp,
      fun id hid => hid, fun id hid => .inl hid⟩)
    (fun {tried st id} h htried =>
      (h fun i hi => htried i (List.mem_append_left _ hi)).next now
        (htried id (List.mem_append_right _ (List.mem_singleton_self id)))) toTag
  exact hrun htoTag

/-! ## the plan -/

/-- What a cycle plans: the pending ids whose rules are there and not owned. -/
structure Planned (rules : List RecurringRule) (pending : List Int)
    (plan : RecurringRuleAdoptionPlan) : Prop where
  toTag : ∀ id ∈ plan.toTag, id ∈ pending ∧ Unowned rules id
  deferred : ∀ id ∈ plan.deferred, id ∈ pending
  covers : ∀ id ∈ pending, id ∈ plan.toTag ∨ id ∈ plan.deferred ∨
    rules.find? (fun r => r.id == id) = none ∨
    ∃ rule, rules.find? (fun r => r.id == id) = some rule ∧ isManagedRuleName rule.name = true

theorem planned_planRecurringRuleAdoption (pending : List Int) (rules : List RecurringRule)
    (recordings : List Recording) (haveRecordings : Bool) (now margin : Int) :
    Planned rules pending
      (planRecurringRuleAdoption pending rules recordings haveRecordings now margin) := by
  refine Runs.foldl_history (I := fun ids plan => Planned rules ids plan)
    ⟨by simp, by simp, by simp⟩ (fun {ids plan id} h => ?_) pending
  have hearlier : ∀ i, i ∈ ids → i ∈ ids ++ [id] := fun i hi => List.mem_append_left _ hi
  have hself : id ∈ ids ++ [id] := List.mem_append_right _ (List.mem_singleton_self id)
  have htoTag : ∀ i ∈ plan.toTag, i ∈ ids ++ [id] ∧ Unowned rules i :=
    fun i hi => ⟨hearlier i (h.toTag i hi).1, (h.toTag i hi).2⟩
  have hdeferred : ∀ i ∈ plan.deferred, i ∈ ids ++ [id] :=
    fun i hi => hearlier i (h.deferred i hi)
  unfold planAdoption
  cases hfind : rules.find? fun r => r.id == id with
  | none =>
      refine ⟨htoTag, hdeferred, fun i hi => ?_⟩
      rcases List.mem_append.mp hi with hi | hi
      · exact h.covers i hi
      · obtain rfl := List.mem_singleton.mp hi
        exact .inr (.inr (.inl hfind))
  | some rule =>
      by_cases hmanaged : isManagedRuleName rule.name = true
      · simp only [hmanaged, if_true]
        refine ⟨htoTag, hdeferred, fun i hi => ?_⟩
        rcases List.mem_append.mp hi with hi | hi
        · exact h.covers i hi
        · obtain rfl := List.mem_singleton.mp hi
          exact .inr (.inr (.inr ⟨rule, hfind, hmanaged⟩))
      · simp only [hmanaged, Bool.false_eq_true, if_false]
        by_cases hactive : hasActiveOrImminentOccurrence rule recordings haveRecordings now
            margin = true
        · simp only [hactive, if_true]
          refine ⟨htoTag, ?_, ?_⟩ <;> intro i hi <;>
            rcases List.mem_append.mp hi with hi | hi
          · exact hdeferred i hi
          · obtain rfl := List.mem_singleton.mp hi
            exact hself
          · rcases h.covers i hi with htag | hwait | hgone
            · exact .inl htag
            · exact .inr (.inl (List.mem_append_left _ hwait))
            · exact .inr (.inr hgone)
          · exact .inr (.inl (List.mem_append_right _ hi))
        · simp only [hactive, Bool.false_eq_true, if_false]
          refine ⟨?_, hdeferred, ?_⟩ <;> intro i hi <;>
            rcases List.mem_append.mp hi with hi | hi
          · exact htoTag i hi
          · obtain rfl := List.mem_singleton.mp hi
            exact ⟨hself, rule, hfind, by simpa using hmanaged⟩
          · exact (h.covers i hi).imp_left (List.mem_append_left _)
          · exact .inl (List.mem_append_right _ hi)

/-! ## one cycle -/

/-- The adoption state a cycle works on. -/
def RecurringRuleAdoptionState.evaluated (adoption : RecurringRuleAdoptionState)
    (given : AdoptionCycle) : RecurringRuleAdoptionState :=
  if adoption.known then adoption else evaluateInitialAdoption given.rules given.now

/-- Why a cycle may drop an id from the pending ones: its rule is gone, is
tagged already, was tagged now, or is refused for good. -/
def Leaves (given : AdoptionCycle) (before after : RuleServer) (id : Int) : Prop :=
  given.rules.find? (fun r => r.id == id) = none ∨
  (∃ rule, given.rules.find? (fun r => r.id == id) = some rule ∧
    isManagedRuleName rule.name = true) ∨
  Settled given.answers after.log before.log.length id

/-- What one cycle does to the adoption state and the server. -/
structure Cycled (given : AdoptionCycle) (st st' : RenewalState) : Prop where
  known : st'.adoption.known = true
  done_stays : (st.adoption.evaluated given).done = true →
    st'.adoption = st.adoption.evaluated given
  done_empty : (st.adoption.evaluated given).done = false → st'.adoption.done = true →
    st'.adoption.pending = []
  pending : ∀ id ∈ st'.adoption.pending, id ∈ (st.adoption.evaluated given).pending
  leaves : (st.adoption.evaluated given).done = false →
    ∀ id ∈ (st.adoption.evaluated given).pending, id ∉ st'.adoption.pending →
    Leaves given st.server st'.server id
  sends : ∃ sent, st'.server.log = st.server.log ++ sent ∧
    ∀ req ∈ sent, req.ruleId ∈ (st.adoption.evaluated given).pending ∧ SendsTag given.rules req

theorem evaluateInitialAdoption_spec (rules : List RecurringRule) (now : Int) :
    (evaluateInitialAdoption rules now).known = true ∧
      ((evaluateInitialAdoption rules now).done = true →
        (evaluateInitialAdoption rules now).pending = []) ∧
      ∀ id ∈ (evaluateInitialAdoption rules now).pending, ∃ rule ∈ rules, rule.id = id := by
  by_cases hdone : (rules.isEmpty || rules.any fun r => isManagedRuleName r.name) = true
  · have hevaluated : evaluateInitialAdoption rules now = { known := true, done := true } := by
      simp only [evaluateInitialAdoption, if_pos hdone]
    rw [hevaluated]
    simp
  · have hevaluated : ∃ pending : List Int, (∀ id ∈ pending, ∃ rule ∈ rules, rule.id = id) ∧
        evaluateInitialAdoption rules now =
          { known := true, done := pending.isEmpty, pending } := by
      refine ⟨(rules.filter fun rule =>
        !(decide (0 < rule.endDate) && decide (rule.endDate ≤ now))).map (·.id), ?_, ?_⟩
      rotate_left
      · simp only [evaluateInitialAdoption, if_neg hdone]
      intro id hid
      obtain ⟨rule, hrule, rfl⟩ := List.mem_map.mp hid
      exact ⟨rule, List.mem_of_mem_filter hrule, rfl⟩
    obtain ⟨pending, hpending, hevaluated⟩ := hevaluated
    rw [hevaluated]
    exact ⟨rfl, List.isEmpty_iff.mp, hpending⟩

theorem known_evaluated (adoption : RecurringRuleAdoptionState) (given : AdoptionCycle) :
    (adoption.evaluated given).known = true := by
  unfold RecurringRuleAdoptionState.evaluated
  split
  · assumption
  · exact (evaluateInitialAdoption_spec given.rules given.now).1

theorem cycled_adopt (given : AdoptionCycle) (st : RenewalState) :
    Cycled given st (adoptExistingRecurringRulesOnce given.answers given.rules given.recordings
      given.haveRecordings given.now st).1 := by
  have hknown := known_evaluated st.adoption given
  have hunfold : adoptExistingRecurringRulesOnce given.answers given.rules given.recordings
      given.haveRecordings given.now st =
      if (st.adoption.evaluated given).done then
        ({ st with adoption := st.adoption.evaluated given }, given.rules)
      else
        let plan := planRecurringRuleAdoption (st.adoption.evaluated given).pending given.rules
          given.recordings given.haveRecordings given.now recurringRuleRenewalSafetyMarginSeconds
        let tagged := plan.toTag.foldl (tagRule given.answers given.now)
          { server := st.server, rules := given.rules, failures := st.failures,
            stillPending := plan.deferred }
        ({ adoption :=
            { st.adoption.evaluated given with
              pending := tagged.stillPending
              done := tagged.stillPending.isEmpty }
           failures := tagged.failures
           server := tagged.server }, tagged.rules) := rfl
  rw [hunfold]
  by_cases hdone : (st.adoption.evaluated given).done = true
  · rw [if_pos hdone]
    refine ⟨hknown, fun _ => rfl, ?_, fun id hid => hid, ?_, ⟨[], by simp, by simp⟩⟩
    · intro hnot
      exact absurd hdone (by simp [hnot])
    · intro hnot
      exact absurd hdone (by simp [hnot])
  · rw [if_neg hdone]
    have hplan := planned_planRecurringRuleAdoption (st.adoption.evaluated given).pending
      given.rules given.recordings given.haveRecordings given.now
      recurringRuleRenewalSafetyMarginSeconds
    generalize planRecurringRuleAdoption (st.adoption.evaluated given).pending given.rules
      given.recordings given.haveRecordings given.now
      recurringRuleRenewalSafetyMarginSeconds = plan at hplan ⊢
    have hloop := tagLoop_foldl given.answers given.now st.server st.failures plan.deferred
      fun id hid => (hplan.toTag id hid).2
    constructor
    · exact hknown
    · intro h
      exact absurd h hdone
    · intro _ hempty
      exact List.isEmpty_iff.mp hempty
    · intro id hid
      rcases hloop.pending id hid with hdeferred | htag
      · exact hplan.deferred id hdeferred
      · exact (hplan.toTag id htag).1
    · intro _ id hid hleft
      rcases hplan.covers id hid with htag | hdeferred | hgone | hmanaged
      · exact .inr (.inr ((hloop.kept id htag).resolve_left hleft))
      · exact absurd (hloop.keepsDeferred id hdeferred) hleft
      · exact .inl hgone
      · exact .inr (.inl hmanaged)
    · obtain ⟨sent, hlog, hsent⟩ := hloop.sends
      exact ⟨sent, hlog, fun req hreq => ⟨(hplan.toTag _ (hsent req hreq).1).1, (hsent req hreq).2⟩⟩

/-! ## whole runs -/

section Run

variable {Text : Type} {dump : Json → Text} {parse : Text → Option Json}

/-- What a run keeps: before the first cycle nothing is known, pending or sent;
from then on the file holds the adoption state, and everything pending or sent
was pending at the first cycle. -/
inductive Migrating (dump : Json → Text) (events : List AdoptionEvent) (sys : AdoptionSystem Text) :
    Prop
  | fresh (noCycle : ∀ given, .cycle given ∉ events) (adoption : sys.state.adoption = {})
      (file : sys.file = none) (log : sys.state.server.log = [])
  | started (cycled : ∃ given, .cycle given ∈ events) (known : sys.state.adoption.known = true)
      (file : sys.file = some (serializeAdoptionState dump sys.state.adoption))
      (done : sys.state.adoption.done = true → sys.state.adoption.pending = [])
      (pending : ∀ id ∈ sys.state.adoption.pending,
        id ∈ initialPending events ∧ 0 < id ∧ id ≤ intMax)
      (log : ∀ req ∈ sys.state.server.log, req.ruleId ∈ initialPending events)

theorem initialPending_concat_of_cycle {events : List AdoptionEvent}
    (h : ∃ given, .cycle given ∈ events) (event : AdoptionEvent) :
    initialPending (events ++ [event]) = initialPending events := by
  induction events with
  | nil => simp at h
  | cons first events ih =>
      cases first with
      | cycle given => rfl
      | restart =>
          obtain ⟨given, hgiven⟩ := h
          have hlater : .cycle given ∈ events := by simpa using hgiven
          exact ih ⟨given, hlater⟩

theorem initialPending_concat_of_fresh {events : List AdoptionEvent}
    (h : ∀ given, .cycle given ∉ events) (event : AdoptionEvent) :
    initialPending (events ++ [event]) = initialPending [event] := by
  induction events with
  | nil => rfl
  | cons first events ih =>
      cases first with
      | cycle given => exact absurd List.mem_cons_self (h given)
      | restart => exact ih fun given hgiven => h given (List.mem_cons_of_mem _ hgiven)

/-- A restart gives back the adoption state. -/
theorem Migrating.adoption_restart (hlibrary : ReadsBack dump parse)
    {events : List AdoptionEvent} {sys : AdoptionSystem Text} (h : Migrating dump events sys) :
    (sys.restart parse).state.adoption = sys.state.adoption := by
  cases h with
  | fresh noCycle adoption file log => simp [AdoptionSystem.restart, file, adoption]
  | started cycled known file done pending log =>
      have hread := parseAdoptionState_serializeAdoptionState hlibrary known done
        fun id hid => (pending id hid).2
      simp [AdoptionSystem.restart, file, hread]

theorem Migrating.cycle {events : List AdoptionEvent} {sys : AdoptionSystem Text}
    {given : AdoptionCycle} (h : Migrating dump events sys)
    (hids : ∀ rule ∈ given.rules, 0 < rule.id ∧ rule.id ≤ intMax) :
    Migrating dump (events ++ [.cycle given]) (sys.cycle dump given) := by
  have hcycled := cycled_adopt given sys.state
  have hmem : ∃ g, .cycle g ∈ events ++ [.cycle given] :=
    ⟨given, List.mem_append_right _ (List.mem_singleton_self _)⟩
  obtain ⟨sent, hlog, hsent⟩ := hcycled.sends
  cases h with
  | fresh noCycle adoption file log =>
      have hinitial := initialPending_concat_of_fresh noCycle (.cycle given)
      have hevaluated : sys.state.adoption.evaluated given =
          evaluateInitialAdoption given.rules given.now := by
        simp [adoption, RecurringRuleAdoptionState.evaluated]
      obtain ⟨-, hempty, hfrom⟩ := evaluateInitialAdoption_spec given.rules given.now
      rw [← hevaluated] at hempty hfrom
      have hpending : initialPending (events ++ [.cycle given]) =
          (sys.state.adoption.evaluated given).pending := by
        rw [hinitial, hevaluated]
        rfl
      refine .started hmem hcycled.known ?_ ?_ ?_ ?_
      · simp [AdoptionSystem.cycle, adoption]
      · intro hdone
        cases hevaluatedDone : (sys.state.adoption.evaluated given).done with
        | true =>
            have hsame := hcycled.done_stays hevaluatedDone
            simp only [AdoptionSystem.cycle] at hdone ⊢
            rw [hsame]
            exact hempty hevaluatedDone
        | false => exact hcycled.done_empty hevaluatedDone hdone
      · intro id hid
        have hid := hcycled.pending id hid
        obtain ⟨rule, hrule, rfl⟩ := hfrom id hid
        exact ⟨hpending ▸ hid, hids rule hrule⟩
      · intro req hreq
        simp only [AdoptionSystem.cycle, hlog, log, List.nil_append] at hreq
        rw [hpending]
        exact (hsent req hreq).1
  | started cycled known file done pending log =>
      have hevaluated : sys.state.adoption.evaluated given = sys.state.adoption := by
        simp [RecurringRuleAdoptionState.evaluated, known]
      have hinitial := initialPending_concat_of_cycle cycled (.cycle given)
      refine .started hmem hcycled.known ?_ ?_ ?_ ?_
      · cases hdone : sys.state.adoption.done with
        | true =>
            have hsame := hcycled.done_stays (by rw [hevaluated]; exact hdone)
            simp only [AdoptionSystem.cycle, known, hdone, Bool.and_self, if_true, file]
            rw [hsame, hevaluated]
        | false => simp [AdoptionSystem.cycle, hdone]
      · intro hafter
        cases hdone : sys.state.adoption.done with
        | true =>
            have hsame := hcycled.done_stays (by rw [hevaluated]; exact hdone)
            simp only [AdoptionSystem.cycle]
            rw [hsame, hevaluated]
            exact done hdone
        | false => exact hcycled.done_empty (by rw [hevaluated]; exact hdone) hafter
      · intro id hid
        have hid := hcycled.pending id hid
        rw [hevaluated] at hid
        rw [hinitial]
        exact pending id hid
      · intro req hreq
        rw [hinitial]
        simp only [AdoptionSystem.cycle, hlog] at hreq
        rcases List.mem_append.mp hreq with hreq | hreq
        · exact log req hreq
        · have hid := (hsent req hreq).1
          rw [hevaluated] at hid
          exact (pending _ hid).1

theorem Migrating.restart (hlibrary : ReadsBack dump parse) {events : List AdoptionEvent}
    {sys : AdoptionSystem Text} (h : Migrating dump events sys) :
    Migrating dump (events ++ [.restart]) (sys.restart parse) := by
  have hsame := h.adoption_restart hlibrary
  cases h with
  | fresh noCycle adoption file log =>
      refine .fresh ?_ (hsame.trans adoption) file log
      intro given hgiven
      exact noCycle given (by simpa using hgiven)
  | started cycled known file done pending log =>
      obtain ⟨given, hgiven⟩ := cycled
      have hinitial := initialPending_concat_of_cycle ⟨given, hgiven⟩ .restart
      refine .started ⟨given, List.mem_append_left _ hgiven⟩ ?_ ?_ ?_ ?_ ?_
      · rw [hsame]
        exact known
      · rw [hsame]
        exact file
      · rw [hsame]
        exact done
      · rw [hsame, hinitial]
        exact pending
      · rw [hinitial]
        exact log

theorem ValidIds.of_concat {events : List AdoptionEvent} {event : AdoptionEvent}
    (h : ValidIds (events ++ [event])) : ValidIds events :=
  fun given hgiven => h given (List.mem_append_left _ hgiven)

theorem AdoptionSystem.after_concat (serverRules : Int → RecurringRule)
    (events : List AdoptionEvent) (event : AdoptionEvent) :
    after dump parse serverRules (events ++ [event]) =
      (after dump parse serverRules events).next dump parse event := by
  simp [after]

theorem migrating_after (hlibrary : ReadsBack dump parse) (serverRules : Int → RecurringRule)
    {events : List AdoptionEvent} (hids : ValidIds events) :
    Migrating dump events (AdoptionSystem.after dump parse serverRules events) := by
  induction events using List.reverseRecOn with
  | nil => exact .fresh (by simp) rfl rfl rfl
  | append_singleton events event ih =>
      have hbefore := ih hids.of_concat
      rw [AdoptionSystem.after_concat]
      cases event with
      | cycle given =>
          refine hbefore.cycle ?_
          exact hids given (List.mem_append_right _ (List.mem_singleton_self _))
      | restart => exact hbefore.restart hlibrary

/-- A refusal for a reason of the rule's own. -/
theorem classifyAdoptionPatchFailure_eq_permanent_iff {httpStatus : Int} :
    classifyAdoptionPatchFailure httpStatus = .permanent ↔
      400 ≤ httpStatus ∧ httpStatus < 500 ∧ httpStatus ≠ 401 ∧ httpStatus ≠ 408 ∧
        httpStatus ≠ 429 := by
  unfold classifyAdoptionPatchFailure
  split <;> simp_all

end Run

open AdoptionSystem in
/-- The marking over any run of cycles and restarts: what is sent, and under
which name; when an id leaves the pending ones; that it stays done; and that a
restart loses nothing. -/
theorem adoption_migration {Text : Type} (dump : Json → Text) (parse : Text → Option Json)
    (hlibrary : ReadsBack dump parse) (serverRules : Int → RecurringRule)
    (events : List AdoptionEvent) (event : AdoptionEvent) (hids : ValidIds (events ++ [event])) :
    let before := after dump parse serverRules events
    let after := after dump parse serverRules (events ++ [event])
    (∀ req ∈ after.state.server.log, req.ruleId ∈ initialPending (events ++ [event])) ∧
    (∃ sent, after.state.server.log = before.state.server.log ++ sent ∧
      ∀ req ∈ sent, ∃ given rule, event = .cycle given ∧
        given.rules.find? (fun r => r.id == req.ruleId) = some rule ∧
        req.patch.name = some (addManagedRuleMarker rule.name) ∧
        (codePointCount (addManagedRuleMarker rule.name) ≤ maxRuleNameCharacters ↔
          codePointCount rule.name + 7 ≤ maxRuleNameCharacters)) ∧
    (∀ id ∈ before.state.adoption.pending, id ∉ after.state.adoption.pending →
      ∃ given, event = .cycle given ∧
        (given.rules.find? (fun r => r.id == id) = none ∨
          (∃ rule, given.rules.find? (fun r => r.id == id) = some rule ∧
            isManagedRuleName rule.name = true) ∨
          ∃ k req, before.state.server.log.length ≤ k ∧ after.state.server.log[k]? = some req ∧
            req.ruleId = id ∧
            let answer := given.answers k req.before req.patch
            answer.outcome.isOk = true ∨
              (400 ≤ answer.httpStatus ∧ answer.httpStatus < 500 ∧ answer.httpStatus ≠ 401 ∧
                answer.httpStatus ≠ 408 ∧ answer.httpStatus ≠ 429))) ∧
    (before.state.adoption.done = true → after.state.adoption.done = true) ∧
    (after.restart parse).state.adoption = after.state.adoption := by
  intro before after
  have hbefore := migrating_after hlibrary serverRules hids.of_concat
  have hafter := migrating_after hlibrary serverRules hids
  have hstep : after = before.next dump parse event := after_concat ..
  have hpersists := hafter.adoption_restart hlibrary
  have hmine : ∀ req ∈ after.state.server.log,
      req.ruleId ∈ initialPending (events ++ [event]) := by
    cases hafter with
    | fresh noCycle adoption file log => simp [after, log]
    | started cycled known file done pending log => exact log
  refine ⟨hmine, ?_⟩
  cases event with
  | restart =>
      have hsame : after.state.adoption = before.state.adoption := by
        rw [hstep]
        exact hbefore.adoption_restart hlibrary
      have hlog : after.state.server.log = before.state.server.log := by
        rw [hstep]
        rfl
      refine ⟨⟨[], by simp [hlog], by simp⟩, ?_, ?_, hpersists⟩
      · intro id hid hleft
        exact absurd (hsame ▸ hid) hleft
      · rw [hsame]
        exact id
  | cycle given =>
      have hcycled : Cycled given before.state after.state := by
        rw [hstep]
        exact cycled_adopt given before.state
      obtain ⟨sent, hlog, hsent⟩ := hcycled.sends
      -- an id pending before, and a marking that is done, are known ones
      have hevaluated : before.state.adoption.done = true ∨ before.state.adoption.pending ≠ [] →
          before.state.adoption.evaluated given = before.state.adoption := by
        intro hstarted
        cases hbefore with
        | fresh noCycle adoption file log =>
            have hdefault : before.state.adoption = {} := adoption
            simp [hdefault] at hstarted
        | started cycled known file done pending log =>
            exact if_pos known
      refine ⟨⟨sent, hlog, ?_⟩, ?_, ?_, hpersists⟩
      · intro req hreq
        obtain ⟨-, rule, hrule, hunowned, hname⟩ := hsent req hreq
        exact ⟨given, rule, rfl, hrule, hname, codePointCount_addManagedRuleMarker hunowned⟩
      · intro id hid hleft
        have hsame := hevaluated (.inr (List.ne_nil_of_mem hid))
        have hopen : before.state.adoption.done = false := by
          cases hdone : before.state.adoption.done with
          | false => rfl
          | true =>
              have hstays := hcycled.done_stays (by rw [hsame]; exact hdone)
              rw [hstays, hsame] at hleft
              exact absurd hid hleft
        refine ⟨given, rfl, ?_⟩
        rcases hcycled.leaves (by rw [hsame]; exact hopen) id (by rw [hsame]; exact hid) hleft with
          hgone | hmanaged | ⟨k, req, hk, hreq, hid, hanswer⟩
        · exact .inl hgone
        · exact .inr (.inl hmanaged)
        · exact .inr (.inr ⟨k, req, hk, hreq, hid,
            hanswer.imp_right classifyAdoptionPatchFailure_eq_permanent_iff.mp⟩)
      · intro hdone
        have hsame := hevaluated (.inl hdone)
        rw [hcycled.done_stays (by rw [hsame]; exact hdone), hsame]
        exact hdone

/-! ## a name too long for the tag -/

/-- A rule whose name has 249 characters. -/
def longNameRule : RecurringRule := { id := 1, name := List.replicate 249 0x61 }

/-- A cycle in which the server refuses a name of more than 255. -/
def longNameCycle : AdoptionCycle where
  answers := fun _ _ patch =>
    if codePointCount (patch.name.getD []) ≤ maxRuleNameCharacters then ⟨.ok, 0⟩
    else ⟨.failedNotLanded, 400⟩
  rules := [longNameRule]
  now := 0

/-- The JSON library on a document, a text being the document it is of. -/
def rereadDocument : Json → Option Json
  | .object fields => some (.object (fields.map fun field => (field.1, rereadField field.2)))
  | doc => some doc
where
  rereadField : Json → Json
    | .array items => .array (items.map rereadNumber)
    | value => rereadNumber value
  rereadNumber : Json → Json
    | .numberInteger n => if 0 ≤ n then .numberUnsigned n.toNat else .numberInteger n
    | value => value

theorem readsBack_rereadDocument : ReadsBack (fun doc => doc) rereadDocument := by
  intro state hpending
  have hitems : (state.pending.map Json.numberInteger).map rereadDocument.rereadNumber =
      state.pending.map fun n => .numberUnsigned n.toNat := by
    rw [List.map_map, List.map_inj_left]
    intro id hid
    simp [rereadDocument.rereadNumber, hpending id hid]
  simp [adoptionDocument, rereadDocument, rereadDocument.rereadField,
    rereadDocument.rereadNumber, hitems]

/-- The marking of `longNameRule`, and a restart. -/
theorem adoption_migration_restart :
    let events := [.cycle longNameCycle, .restart]
    let sys := AdoptionSystem.after (fun doc => doc) rereadDocument (fun _ => longNameRule) events
    (∀ req ∈ sys.state.server.log, req.ruleId ∈ initialPending events) ∧
      (sys.restart rereadDocument).state.adoption = sys.state.adoption := by
  intro events sys
  have hids : ValidIds ([.cycle longNameCycle] ++ [.restart]) := by
    intro given hgiven rule hrule
    obtain rfl : given = longNameCycle := by simpa using hgiven
    obtain rfl : rule = longNameRule := by simpa [longNameCycle] using hrule
    decide
  have hrun := adoption_migration _ _ readsBack_rereadDocument (fun _ => longNameRule)
    [.cycle longNameCycle] .restart hids
  exact ⟨hrun.1, hrun.2.2.2.2⟩

/-- The marking sends the whole name with the tag, and drops the rule when the
server refuses it. -/
theorem adoption_migration_long_name :
    let after := (AdoptionSystem.after (fun doc => doc) rereadDocument (fun _ => longNameRule)
      [.cycle longNameCycle]).state
    codePointCount longNameRule.name ≤ maxRuleNameCharacters ∧
      initialPending [.cycle longNameCycle] = [longNameRule.id] ∧
      after.server.log.map (·.patch.name) = [some (addManagedRuleMarker longNameRule.name)] ∧
      maxRuleNameCharacters < codePointCount (addManagedRuleMarker longNameRule.name) ∧
      after.adoption.done = true ∧ after.adoption.pending = [] ∧
      isManagedRuleName (after.server.rules longNameRule.id).name = false := by
  decide +kernel

end DispatcharrPvr
