import DispatcharrPvr.SeriesRuleEdit
import Mathlib.Data.UInt

/-!
# SeriesRuleEdit.Frame

What an edit or a delete of a series rule does to the rules of the server, when
the cached list is the server's: it sends at most one delete, behind the create
of the replacement, and that delete removes the old rule only.  The rules are
followed through every prefix of the requests, so what is said of the end is
said of every moment before it as well.
-/

namespace DispatcharrPvr

/-! ## the rules after a list of requests -/

theorem servedSeriesRules_cons (rules : List TimerRule) (s : SentSeriesRuleRequest)
    (sent : List SentSeriesRuleRequest) :
    servedSeriesRules rules (s :: sent) =
      servedSeriesRules (if s.outcome.landed then s.request.serve rules else rules) sent := rfl

/-- An identity no delete removes is still there after the requests. -/
theorem mem_served_of_kept {rules : List TimerRule} {sent : List SentSeriesRuleRequest}
    {id : SeriesRuleIdentity} (hmem : id ∈ seriesRuleIdentities rules)
    (hkept : ∀ s ∈ sent, ∀ query, s.request = .delete query → ¬ query.removes id) :
    id ∈ seriesRuleIdentities (servedSeriesRules rules sent) := by
  induction sent generalizing rules with
  | nil => exact hmem
  | cons s sent ih =>
      rw [servedSeriesRules_cons]
      refine ih ?_ fun t ht => hkept t (List.mem_cons_of_mem s ht)
      have hhead := hkept s List.mem_cons_self
      split
      · cases hrequest : s.request with
        | create body => exact mem_identities_upsertSeriesRule.mpr (.inr hmem)
        | evaluate tvgId => exact hmem
        | delete query => exact mem_identities_filter_removes.mpr ⟨hmem, hhead query hrequest⟩
      · exact hmem

/-- The identity of a create that succeeded first is there, unless a later
delete removes it. -/
theorem mem_served_of_created {rules : List TimerRule} {sent : List SentSeriesRuleRequest}
    {body : SeriesRuleRequestBody}
    (hkept : ∀ s ∈ sent, ∀ query, s.request = .delete query → ¬ query.removes body.rule.identity) :
    body.rule.identity ∈
      seriesRuleIdentities (servedSeriesRules rules (⟨.create body, .ok⟩ :: sent)) := by
  rw [servedSeriesRules_cons]
  exact mem_served_of_kept (mem_identities_upsertSeriesRule.mpr (.inl rfl)) hkept

theorem eq_ok_of_isOk {o : RequestOutcome} (h : o.isOk = true) : o = .ok := by
  cases o with
  | ok => rfl
  | failedLanded => contradiction
  | failedNotLanded => contradiction

section Branches

variable {hash : ByteString → UInt64} {w : SeriesRuleWorld} {timer : KodiSeriesTimer}

/-! ## what a delete removes -/

/-- The delete of a rule that has no pinned sibling where it names no source
removes that rule and no other of the list. -/
theorem removes_iff_eq {rule : TimerRule}
    (hsibling : rule.epgSourceId ≤ 0 →
      hasPinnedSiblingSeriesRule w.rules rule.title rule.tvgId = false)
    {other : TimerRule} (hmem : other ∈ w.rules) :
    (buildSeriesRuleDeleteQuery rule.title rule.tvgId rule.epgSourceId).removes other.identity ↔
      other.identity = rule.identity := by
  rw [removes_buildSeriesRuleDeleteQuery_iff]
  constructor
  · rintro ⟨htitle, htvg, hsource⟩
    have htitle' : other.title = rule.title := htitle
    have htvg' : other.tvgId = rule.tvgId := htvg
    have hsource' : other.epgSourceId.toNat = rule.epgSourceId.toNat := by
      by_cases hpinned : 0 < rule.epgSourceId
      · exact hsource hpinned
      · have := hasPinnedSiblingSeriesRule_eq_false (hsibling (by omega)) hmem htitle' htvg'
        omega
    simp only [TimerRule.identity, htitle', htvg', hsource']
  · rintro h
    exact ⟨congrArg (·.title) h, congrArg (·.tvgId) h, fun _ => congrArg (·.epgSource) h⟩

theorem identity_editedBody :
    (editedBody hash w timer).rule.identity =
      ⟨editedTitle timer, editedTvgId hash w timer, (editedEpgSourceId hash w timer).toNat⟩ := by
  simp only [editedBody, identity_rule_buildSeriesRuleRequestBody]

/-- An edit that replaces a rule sends an identity the delete of the old rule
does not remove. -/
theorem not_removes_editedBody {old : TimerRule}
    (hreplaces : editReplaces hash w timer old = true) :
    ¬ (buildSeriesRuleDeleteQuery old.title old.tvgId old.epgSourceId).removes
      (editedBody hash w timer).rule.identity := by
  rw [removes_buildSeriesRuleDeleteQuery_iff, identity_editedBody]
  rintro ⟨htitle, htvg, hsource⟩
  have hkept : editReplaces hash w timer old = false := by
    unfold editReplaces
    rw [shouldReplaceSeriesRuleOnEdit_eq_false_iff]
    refine ⟨htitle.symm, htvg.symm, fun hpinned => ?_⟩
    have hsent : (editedEpgSourceId hash w timer).toNat = old.epgSourceId.toNat := hsource hpinned
    omega
  rw [hreplaces] at hkept
  contradiction

/-- An edit that replaces nothing sends the identity of the old rule. -/
theorem identity_editedBody_of_not_replaces {old : TimerRule}
    (hold : oldSeriesRule hash w timer = some old)
    (hreplaces : editReplaces hash w timer old = false) :
    (editedBody hash w timer).rule.identity = old.identity := by
  unfold editReplaces at hreplaces
  rw [shouldReplaceSeriesRuleOnEdit_eq_false_iff] at hreplaces
  obtain ⟨htitle, htvg, hsource⟩ := hreplaces
  have hsent : (editedEpgSourceId hash w timer).toNat = old.epgSourceId.toNat := by
    by_cases hpinned : 0 < old.epgSourceId
    · rw [← hsource hpinned]
    · have : editedEpgSourceId hash w timer = 0 := by
        simp only [editedEpgSourceId, hold, resolveSeriesRuleSourceOnEdit]
        rw [if_pos (by omega)]
      omega
  rw [identity_editedBody, ← htitle, ← htvg, hsent]
  rfl

/-! ## what each branch can do -/

/-- What an edit can come to: it refuses, the create fails, it stands alone, or
the old rule is deleted behind it. -/
theorem updateSeriesTimer_cases (hash : ByteString → UInt64) (w : SeriesRuleWorld)
    (timer : KodiSeriesTimer) :
    ((updateSeriesTimer hash w timer).requests = [] ∧
      (updateSeriesTimer hash w timer).refusal ≠ none) ∨
    ((updateSeriesTimer hash w timer).requests =
        [⟨.create (editedBody hash w timer), w.createOutcome⟩] ∧ w.createOutcome.isOk = false) ∨
    ((updateSeriesTimer hash w timer).requests = [⟨.create (editedBody hash w timer), .ok⟩,
        ⟨.evaluate (editedBody hash w timer).tvgId, w.evaluateOutcome⟩] ∧
      ((updateSeriesTimer hash w timer).notifications = [] →
        ∀ old, oldSeriesRule hash w timer = some old → editReplaces hash w timer old = false)) ∨
    ∃ old, oldSeriesRule hash w timer = some old ∧ editReplaces hash w timer old = true ∧
      old.title ≠ [] ∧
      (old.epgSourceId ≤ 0 → hasPinnedSiblingSeriesRule w.rules old.title old.tvgId = false) ∧
      (updateSeriesTimer hash w timer).requests = [⟨.create (editedBody hash w timer), .ok⟩,
        ⟨.evaluate (editedBody hash w timer).tvgId, w.evaluateOutcome⟩, deleteSeriesRule w old] := by
  cases hok : w.createOutcome.isOk with
  | false =>
      unfold updateSeriesTimer
      cases hold : oldSeriesRule hash w timer with
      | none => exact .inr (.inl ⟨by simp [createSeriesRule, hok], rfl⟩)
      | some old =>
          dsimp only
          split
          · exact .inl ⟨rfl, by simp⟩
          · exact .inr (.inl ⟨by simp [createSeriesRule, hok], rfl⟩)
  | true =>
      have hcreate := eq_ok_of_isOk hok
      have hsent : createSeriesRule w (editedBody hash w timer) =
          [⟨.create (editedBody hash w timer), .ok⟩,
            ⟨.evaluate (editedBody hash w timer).tvgId, w.evaluateOutcome⟩] := by
        rw [createSeriesRule, hok, hcreate, if_pos rfl]
      unfold updateSeriesTimer
      rw [hsent]
      cases hold : oldSeriesRule hash w timer with
      | none => exact .inr (.inr (.inl ⟨rfl, fun _ old h => nomatch h⟩))
      | some old =>
          dsimp only
          by_cases hreplaces : editReplaces hash w timer old = true
          · by_cases htitle : old.title = []
            · rw [if_pos ⟨hreplaces, by simp [isSeriesRuleSafeToDeleteFromKodi, htitle]⟩]
              exact .inl ⟨rfl, by simp⟩
            · rw [if_neg (by simp [isSeriesRuleSafeToDeleteFromKodi, htitle]),
                if_pos ⟨hok, hreplaces⟩, removeReplacedRule]
              split
              · exact .inr (.inr (.inl ⟨rfl, fun h => nomatch h⟩))
              · next hsibling =>
                  exact .inr (.inr (.inr ⟨old, rfl, hreplaces, htitle, fun h => by simp_all, rfl⟩))
          · rw [if_neg (fun h => hreplaces h.1), if_neg (fun h => hreplaces h.2)]
            refine .inr (.inr (.inl ⟨rfl, fun _ old' h => ?_⟩))
            obtain rfl : old = old' := Option.some.inj h
            exact Bool.eq_false_iff.mpr hreplaces

/-- What a delete can come to: it refuses, or it sends the delete of the rule. -/
theorem deleteSeriesTimer_cases (hash : ByteString → UInt64) (w : SeriesRuleWorld)
    (clientIndex : UInt32) :
    ((deleteSeriesTimer hash w clientIndex).requests = [] ∧
      (deleteSeriesTimer hash w clientIndex).refusal ≠ none) ∨
    ∃ cached, findSeriesRuleByClientIndex hash w.rules clientIndex = some cached ∧
      cached.title ≠ [] ∧
      (cached.epgSourceId ≤ 0 →
        hasPinnedSiblingSeriesRule w.rules cached.title cached.tvgId = false) ∧
      (deleteSeriesTimer hash w clientIndex).requests = [deleteSeriesRule w cached] := by
  unfold deleteSeriesTimer
  cases hcached : findSeriesRuleByClientIndex hash w.rules clientIndex with
  | none => exact .inl ⟨rfl, by simp⟩
  | some cached =>
      dsimp only
      by_cases htitle : cached.title = []
      · rw [if_pos (by simp [isSeriesRuleSafeToDeleteFromKodi, htitle])]
        exact .inl ⟨rfl, by simp⟩
      · rw [if_neg (by simp [isSeriesRuleSafeToDeleteFromKodi, htitle])]
        split
        · exact .inl ⟨rfl, by simp⟩
        · next hsibling => exact .inr ⟨cached, rfl, htitle, fun h => by simp_all, rfl⟩

/-! ## the rules of the server -/

/-- Every delete an edit or a delete from Kodi sends is of the rule it is about,
which has a title and, where the delete names no source, no pinned sibling. -/
theorem delete_of_run {action : SeriesRuleAction} {s : SentSeriesRuleRequest}
    {query : SeriesRuleDeleteQuery} (hmem : s ∈ (action.run hash w).requests)
    (hdelete : s.request = .delete query) :
    ∃ rule, findSeriesRuleByClientIndex hash w.rules action.clientIndex = some rule ∧
      rule.title ≠ [] ∧
      (rule.epgSourceId ≤ 0 → hasPinnedSiblingSeriesRule w.rules rule.title rule.tvgId = false) ∧
      query = buildSeriesRuleDeleteQuery rule.title rule.tvgId rule.epgSourceId := by
  cases action with
  | edit timer =>
      change s ∈ (updateSeriesTimer hash w timer).requests at hmem
      rcases updateSeriesTimer_cases hash w timer with
        ⟨hsent, -⟩ | ⟨hsent, -⟩ | ⟨hsent, -⟩ | ⟨old, hold, -, htitle, hsibling, hsent⟩
      · simp [hsent] at hmem
      · rw [hsent, List.mem_singleton] at hmem
        subst hmem
        contradiction
      · simp only [hsent, List.mem_cons, List.not_mem_nil, or_false] at hmem
        rcases hmem with rfl | rfl <;> contradiction
      · simp only [hsent, List.mem_cons, List.not_mem_nil, or_false] at hmem
        rcases hmem with rfl | rfl | rfl
        · contradiction
        · contradiction
        · exact ⟨old, hold, htitle, hsibling, (SeriesRuleRequest.delete.inj hdelete).symm⟩
  | delete clientIndex =>
      change s ∈ (deleteSeriesTimer hash w clientIndex).requests at hmem
      rcases deleteSeriesTimer_cases hash w clientIndex with
        ⟨hsent, -⟩ | ⟨cached, hcached, htitle, hsibling, hsent⟩
      · simp [hsent] at hmem
      · rw [hsent, List.mem_singleton] at hmem
        subst hmem
        exact ⟨cached, hcached, htitle, hsibling, (SeriesRuleRequest.delete.inj hdelete).symm⟩

/-- A rule of another index is there at every moment. -/
theorem other_rule_kept {action : SeriesRuleAction} {sent : List SentSeriesRuleRequest}
    (hsent : sent <+: (action.run hash w).requests) {rule : TimerRule} (hmem : rule ∈ w.rules)
    (hother : rule.clientIndex hash ≠ action.clientIndex) :
    rule.identity ∈ seriesRuleIdentities (servedSeriesRules w.rules sent) := by
  refine mem_served_of_kept (List.mem_map_of_mem hmem) fun s hs query hdelete hremoves => ?_
  obtain ⟨old, hold, -, hsibling, rfl⟩ := delete_of_run (hsent.subset hs) hdelete
  rw [removes_iff_eq hsibling hmem] at hremoves
  rw [← (findSeriesRuleByClientIndex_eq_some hold).2] at hother
  exact hother (clientIndex_eq_of_identity_eq hash hremoves)

/-- Where the identity of the edited rule is gone, its replacement was created
and is there. -/
theorem replacement_of_gone {sent : List SentSeriesRuleRequest}
    (hsent : sent <+: (updateSeriesTimer hash w timer).requests) {rule : TimerRule}
    (hmem : rule ∈ w.rules)
    (hgone : rule.identity ∉ seriesRuleIdentities (servedSeriesRules w.rules sent)) :
    ⟨.create (editedBody hash w timer), .ok⟩ ∈ sent ∧
      (editedBody hash w timer).rule.identity ∈
        seriesRuleIdentities (servedSeriesRules w.rules sent) := by
  -- without a delete among the requests the rule would be there
  have hdelete : ∃ s ∈ sent, ∃ query, s.request = .delete query := by
    refine Classical.byContradiction fun hnone => hgone ?_
    exact mem_served_of_kept (List.mem_map_of_mem hmem)
      fun s hs query h => absurd ⟨s, hs, query, h⟩ hnone
  obtain ⟨s, hs, query, hquery⟩ := hdelete
  rcases updateSeriesTimer_cases hash w timer with
    ⟨hrequests, -⟩ | ⟨hrequests, -⟩ | ⟨hrequests, -⟩ | ⟨old, -, hreplaces, -, -, hrequests⟩
  · simp [hrequests] at hsent
    simp [hsent] at hs
  · have := hrequests ▸ hsent.subset hs
    rw [List.mem_singleton] at this
    simp [this] at hquery
  · have := hrequests ▸ hsent.subset hs
    simp only [List.mem_cons, List.not_mem_nil, or_false] at this
    rcases this with rfl | rfl <;> simp at hquery
  · rw [hrequests] at hsent
    cases sent with
    | nil => simp at hs
    | cons first rest =>
        obtain ⟨rfl, hrest⟩ := List.cons_prefix_cons.mp hsent
        refine ⟨List.mem_cons_self, mem_served_of_created fun t ht query' hquery' => ?_⟩
        have := hrest.subset ht
        simp only [List.mem_cons, List.not_mem_nil, or_false] at this
        rcases this with rfl | rfl
        · simp at hquery'
        · rw [← SeriesRuleRequest.delete.inj hquery']
          exact not_removes_editedBody hreplaces

/-! ## an edit or a delete that nothing stopped -/

/-- The run sent every request with success, showed no warning and did not
refuse. -/
def SeriesRuleRun.Undisturbed (run : SeriesRuleRun) : Prop :=
  (∀ s ∈ run.requests, s.outcome.isOk = true) ∧ run.notifications = [] ∧ run.refusal = none

instance (run : SeriesRuleRun) : Decidable run.Undisturbed :=
  inferInstanceAs (Decidable (_ ∧ _ ∧ _))

/-- An undisturbed edit leaves its identity in place of the old rule's. -/
theorem mem_identities_of_undisturbed_edit
    (hclear : (updateSeriesTimer hash w timer).Undisturbed) {old : TimerRule}
    (hold : oldSeriesRule hash w timer = some old) {id : SeriesRuleIdentity} :
    id ∈ seriesRuleIdentities
        (servedSeriesRules w.rules (updateSeriesTimer hash w timer).requests) ↔
      id = (editedBody hash w timer).rule.identity ∨
        (id ∈ seriesRuleIdentities w.rules ∧ id ≠ old.identity) := by
  obtain ⟨hok, hquiet, hrefusal⟩ := hclear
  rcases updateSeriesTimer_cases hash w timer with
    ⟨-, hrefused⟩ | ⟨hrequests, hfailed⟩ | ⟨hrequests, hkept⟩ |
      ⟨old', hold', hreplaces, -, hsibling, hrequests⟩
  · exact absurd hrefusal hrefused
  · have := hok _ (hrequests ▸ List.mem_cons_self)
    simp [hfailed] at this
  · have hsame := identity_editedBody_of_not_replaces hold (hkept hquiet old hold)
    have hserved : servedSeriesRules w.rules (updateSeriesTimer hash w timer).requests =
        upsertSeriesRule w.rules (editedBody hash w timer).rule := by
      rw [hrequests]
      simp [servedSeriesRules, SeriesRuleRequest.serve, RequestOutcome.landed]
    rw [hserved, mem_identities_upsertSeriesRule, hsame]
    by_cases h : id = old.identity
    · simp [h]
    · simp [h]
  · obtain rfl : old = old' := Option.some.inj (hold.symm.trans hold')
    have hdeleted : (deleteSeriesRule w old).outcome = .ok :=
      eq_ok_of_isOk (hok _ (by rw [hrequests]; simp))
    have hserved : servedSeriesRules w.rules (updateSeriesTimer hash w timer).requests =
        SeriesRuleRequest.serve (upsertSeriesRule w.rules (editedBody hash w timer).rule)
          (deleteSeriesRule w old).request := by
      rw [hrequests]
      simp [servedSeriesRules, SeriesRuleRequest.serve, RequestOutcome.landed, hdeleted]
    rw [hserved, deleteSeriesRule, mem_identities_filter_removes, mem_identities_upsertSeriesRule]
    constructor
    · rintro ⟨rfl | hmem, hkept⟩
      · exact .inl rfl
      · refine .inr ⟨hmem, ?_⟩
        rintro rfl
        obtain ⟨hmem, -⟩ := findSeriesRuleByClientIndex_eq_some hold
        exact hkept ((removes_iff_eq hsibling hmem).mpr rfl)
    · rintro (rfl | ⟨hmem, hne⟩)
      · exact ⟨.inl rfl, not_removes_editedBody hreplaces⟩
      · obtain ⟨rule, hrule, rfl⟩ := List.mem_map.mp hmem
        exact ⟨.inr hmem, fun h => hne ((removes_iff_eq hsibling hrule).mp h)⟩

/-- An undisturbed delete removes its rule. -/
theorem mem_identities_of_undisturbed_delete {clientIndex : UInt32}
    (hclear : (deleteSeriesTimer hash w clientIndex).Undisturbed) {rule : TimerRule}
    (hrule : findSeriesRuleByClientIndex hash w.rules clientIndex = some rule)
    {id : SeriesRuleIdentity} :
    id ∈ seriesRuleIdentities
        (servedSeriesRules w.rules (deleteSeriesTimer hash w clientIndex).requests) ↔
      id ∈ seriesRuleIdentities w.rules ∧ id ≠ rule.identity := by
  obtain ⟨hok, -, hrefusal⟩ := hclear
  rcases deleteSeriesTimer_cases hash w clientIndex with
    ⟨-, hrefused⟩ | ⟨cached, hcached, -, hsibling, hrequests⟩
  · exact absurd hrefusal hrefused
  · obtain rfl : rule = cached := Option.some.inj (hrule.symm.trans hcached)
    have hdeleted : (deleteSeriesRule w rule).outcome = .ok :=
      eq_ok_of_isOk (hok _ (by rw [hrequests]; simp))
    have hserved : servedSeriesRules w.rules (deleteSeriesTimer hash w clientIndex).requests =
        SeriesRuleRequest.serve w.rules (deleteSeriesRule w rule).request := by
      rw [hrequests]
      simp [servedSeriesRules, RequestOutcome.landed, hdeleted]
    rw [hserved, deleteSeriesRule, mem_identities_filter_removes]
    refine and_congr_right fun hmem => not_congr ?_
    obtain ⟨other, hother, rfl⟩ := List.mem_map.mp hmem
    exact removes_iff_eq hsibling hother

/-- **Editing or deleting a series rule never removes another one.**  At every
moment of an edit or a delete from Kodi, however its requests end, each rule of
another index is there; the identity of an edited rule is gone only where the
create of its replacement succeeded, and then the replacement's is there.  No
delete names an empty title, and an undisturbed run leaves exactly the new
identity of the rule it is about. -/
theorem series_rule_action_keeps_others (hash : ByteString → UInt64) (w : SeriesRuleWorld)
    (hdistinct : NoClientIndexCollision hash w.rules) (action : SeriesRuleAction) :
    (∀ sent, sent <+: (action.run hash w).requests → ∀ rule ∈ w.rules,
      rule.clientIndex hash ≠ action.clientIndex →
        rule.identity ∈ seriesRuleIdentities (servedSeriesRules w.rules sent)) ∧
    (∀ timer, action = .edit timer → ∀ sent, sent <+: (action.run hash w).requests →
      ∀ rule ∈ w.rules, rule.identity ∉ seriesRuleIdentities (servedSeriesRules w.rules sent) →
        ∃ body, ⟨.create body, .ok⟩ ∈ sent ∧ action.newIdentity hash w = some body.rule.identity ∧
          body.rule.identity ∈ seriesRuleIdentities (servedSeriesRules w.rules sent)) ∧
    (∀ s ∈ (action.run hash w).requests, ∀ query, s.request = .delete query → query.title ≠ []) ∧
    ((action.run hash w).Undisturbed → ∀ rule ∈ w.rules,
      rule.clientIndex hash = action.clientIndex → ∀ id,
        id ∈ seriesRuleIdentities (servedSeriesRules w.rules (action.run hash w).requests) ↔
          action.newIdentity hash w = some id ∨
            (id ∈ seriesRuleIdentities w.rules ∧ id ≠ rule.identity)) := by
  refine ⟨fun sent hsent rule hmem hother => other_rule_kept hsent hmem hother, ?_, ?_, ?_⟩
  · rintro timer rfl sent hsent rule hmem hgone
    obtain ⟨hcreated, hthere⟩ := replacement_of_gone hsent hmem hgone
    exact ⟨editedBody hash w timer, hcreated, rfl, hthere⟩
  · intro s hs query hdelete
    obtain ⟨rule, -, htitle, -, rfl⟩ := delete_of_run hs hdelete
    exact htitle
  · intro hclear rule hmem hindex id
    -- without collisions the rule of that index is the one that is found
    have hfound : findSeriesRuleByClientIndex hash w.rules action.clientIndex = some rule := by
      cases hcached : findSeriesRuleByClientIndex hash w.rules action.clientIndex with
      | none => exact absurd hindex (clientIndex_ne_of_findSeriesRule_eq_none hcached hmem)
      | some cached =>
          obtain ⟨hcachedMem, hcachedIndex⟩ := findSeriesRuleByClientIndex_eq_some hcached
          rw [eq_of_clientIndex_eq hdistinct hmem hcachedMem (hindex.trans hcachedIndex.symm)]
    cases action with
    | edit timer =>
        refine (mem_identities_of_undisturbed_edit hclear hfound).trans (or_congr_left ?_)
        exact ⟨fun h => congrArg some h.symm, fun h => (Option.some.inj h).symm⟩
    | delete clientIndex =>
        refine (mem_identities_of_undisturbed_delete hclear hfound).trans ?_
        simp [SeriesRuleAction.newIdentity]

end Branches

/-- A pinned rule, its unpinned sibling and a rule of another title. -/
def siblingWorld : SeriesRuleWorld where
  rules := [{ title := [78], tvgId := [97], epgSourceId := 5 }, { title := [78], tvgId := [97] },
    { title := [70], tvgId := [98] }]
  channels := []
  epgData := fun _ => none
  createOutcome := .ok
  evaluateOutcome := .failedNotLanded
  deleteOutcome := .failedLanded

/-- A hash that tells the rules of `siblingWorld` apart. -/
def byteSum (s : ByteString) : UInt64 := (s.map UInt8.toUInt64).sum

/-- A new search text for the pinned rule; its sibling and the replacement are
there in the end. -/
theorem series_rule_action_keeps_others_sibling :
    let edit := SeriesRuleAction.edit ⟨1073742114, -1, [84], [78], 0⟩
    let served := servedSeriesRules siblingWorld.rules (edit.run byteSum siblingWorld).requests
    ⟨[78], [97], 0⟩ ∈ seriesRuleIdentities served ∧
      ∃ body : SeriesRuleRequestBody, edit.newIdentity byteSum siblingWorld =
        some body.rule.identity ∧ body.rule.identity ∈ seriesRuleIdentities served := by
  intro edit served
  obtain ⟨hothers, hreplaced, -, -⟩ :=
    series_rule_action_keeps_others byteSum siblingWorld (by decide +kernel) edit
  refine ⟨hothers _ (List.prefix_refl _) { title := [78], tvgId := [97] } (by decide +kernel)
    (by decide +kernel), ?_⟩
  obtain ⟨body, -, hbody⟩ := hreplaced _ rfl _ (List.prefix_refl _)
    { title := [78], tvgId := [97], epgSourceId := 5 } (by decide +kernel) (by decide +kernel)
  exact ⟨body, hbody⟩

end DispatcharrPvr
