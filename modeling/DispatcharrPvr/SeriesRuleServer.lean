import DispatcharrPvr.Request
import DispatcharrPvr.TimerIdentity

/-!
# SeriesRuleServer

The server as the series-rule code sees it: the rules it holds, and what the
requests of `CreateSeriesRule` and `DeleteSeriesRule` do to them.  A create
edits the rule with the identity it names, or adds one; a delete that names no
source removes the rules of every source.
-/

namespace DispatcharrPvr

/-- The fields `BuildSeriesRuleRequestBody` sends; `mode` only says "new". -/
structure SeriesRuleRequestBody where
  title : ByteString
  channelId : Option Int := none
  tvgId : Option ByteString := none
  modeNew : Bool := false
  untaggedIsNew : Bool := false
  titleMode : Option ByteString := none
  description : Option ByteString := none
  descriptionMode : Option ByteString := none
  epgSourceId : Option Int := none
deriving DecidableEq, Repr

/-- A string the source sends only when it is not empty. -/
def nonEmpty (s : ByteString) : Option ByteString := if s.isEmpty then none else some s

/-- An id the source sends only when it is positive. -/
def positive (n : Int) : Option Int := if n > 0 then some n else none

/-- `BuildSeriesRuleRequestBody`. -/
def buildSeriesRuleRequestBody (channelId : Int) (tvgId titlePattern : ByteString)
    (recordNewOnly : Bool) (titleMode description descriptionMode : ByteString)
    (untaggedIsNew : Bool) (epgSourceId : Int) : SeriesRuleRequestBody where
  title := titlePattern
  channelId := positive channelId
  tvgId := nonEmpty tvgId
  modeNew := recordNewOnly
  untaggedIsNew := recordNewOnly && untaggedIsNew
  titleMode := nonEmpty titleMode
  description := nonEmpty description
  descriptionMode := nonEmpty descriptionMode
  epgSourceId := positive epgSourceId

/-- The parameters `BuildSeriesRuleDeleteQuery` writes. -/
structure SeriesRuleDeleteQuery where
  title : ByteString
  tvgId : Option ByteString := none
  epgSourceId : Option Int := none
deriving DecidableEq, Repr

/-- `BuildSeriesRuleDeleteQuery`. -/
def buildSeriesRuleDeleteQuery (title tvgId : ByteString) (epgSourceId : Int) :
    SeriesRuleDeleteQuery where
  title
  tvgId := nonEmpty tvgId
  epgSourceId := positive epgSourceId

/-- The requests that concern series rules. -/
inductive SeriesRuleRequest
  | create (body : SeriesRuleRequestBody)
  /-- The evaluation `CreateSeriesRule` asks for behind a create. -/
  | evaluate (tvgId : Option ByteString)
  | delete (query : SeriesRuleDeleteQuery)
deriving DecidableEq, Repr

/-- A request that was sent, and how it ended. -/
structure SentSeriesRuleRequest where
  request : SeriesRuleRequest
  outcome : RequestOutcome
deriving DecidableEq, Repr

/-! ## what the server makes of them -/

/-- The rule a create stores. -/
def SeriesRuleRequestBody.rule (body : SeriesRuleRequestBody) : TimerRule where
  channelId := body.channelId.getD 0
  tvgId := body.tvgId.getD []
  title := body.title
  recordNewOnly := body.modeNew
  titleMode := body.titleMode.getD (ascii "exact")
  description := body.description.getD []
  descriptionMode := body.descriptionMode.getD (ascii "contains")
  untaggedIsNew := body.untaggedIsNew
  epgSourceId := body.epgSourceId.getD 0

/-- Edit in place what has the identity, else append. -/
def upsertSeriesRule (rules : List TimerRule) (rule : TimerRule) : List TimerRule :=
  if rules.any (·.identity = rule.identity) then
    rules.map fun r => if r.identity = rule.identity then rule else r
  else rules ++ [rule]

/-- The rules a delete removes; the identity decides. -/
def SeriesRuleDeleteQuery.removes (query : SeriesRuleDeleteQuery) (id : SeriesRuleIdentity) : Prop :=
  id.title = query.title ∧ id.tvgId = query.tvgId.getD [] ∧
    ∀ source ∈ query.epgSourceId, id.epgSource = source.toNat

instance (query : SeriesRuleDeleteQuery) (id : SeriesRuleIdentity) :
    Decidable (query.removes id) :=
  inferInstanceAs (Decidable (_ ∧ _ ∧ _))

/-- The rules after a request that reached the server. -/
def SeriesRuleRequest.serve (rules : List TimerRule) : SeriesRuleRequest → List TimerRule
  | .create body => upsertSeriesRule rules body.rule
  | .evaluate _ => rules
  | .delete query => rules.filter fun rule => ¬ query.removes rule.identity

/-- The rules after the requests `sent`, one after the other. -/
def servedSeriesRules (rules : List TimerRule) (sent : List SentSeriesRuleRequest) :
    List TimerRule :=
  sent.foldl (fun rules s => if s.outcome.landed then s.request.serve rules else rules) rules

/-- The identities the server has rules for. -/
def seriesRuleIdentities (rules : List TimerRule) : List SeriesRuleIdentity :=
  rules.map TimerRule.identity

/-! ## the identities a request leaves -/

@[simp] theorem nonEmpty_getD (s : ByteString) : (nonEmpty s).getD [] = s := by
  cases s <;> simp [nonEmpty]

@[simp] theorem positive_getD_toNat (n : Int) : ((positive n).getD 0).toNat = n.toNat := by
  unfold positive
  split
  · rfl
  · simp only [Option.getD_none]; omega

/-- The identity of the rule that a create with these values stores. -/
@[simp] theorem identity_rule_buildSeriesRuleRequestBody (channelId : Int)
    (tvgId titlePattern : ByteString) (recordNewOnly : Bool)
    (titleMode description descriptionMode : ByteString) (untaggedIsNew : Bool)
    (epgSourceId : Int) :
    (buildSeriesRuleRequestBody channelId tvgId titlePattern recordNewOnly titleMode description
        descriptionMode untaggedIsNew epgSourceId).rule.identity =
      ⟨titlePattern, tvgId, epgSourceId.toNat⟩ := by
  simp [buildSeriesRuleRequestBody, SeriesRuleRequestBody.rule, TimerRule.identity]

/-- A delete query takes the rules of one source when it has one to name, and
those of every source when it has none. -/
theorem removes_buildSeriesRuleDeleteQuery_iff {title tvgId : ByteString} {epgSourceId : Int}
    {id : SeriesRuleIdentity} :
    (buildSeriesRuleDeleteQuery title tvgId epgSourceId).removes id ↔
      id.title = title ∧ id.tvgId = tvgId ∧
        (0 < epgSourceId → id.epgSource = epgSourceId.toNat) := by
  simp only [buildSeriesRuleDeleteQuery, SeriesRuleDeleteQuery.removes, nonEmpty_getD, positive]
  by_cases h : 0 < epgSourceId
  · simp [h]
  · simp [h]

/-- A create adds its identity and loses none. -/
theorem mem_identities_upsertSeriesRule {rules : List TimerRule} {rule : TimerRule}
    {id : SeriesRuleIdentity} :
    id ∈ seriesRuleIdentities (upsertSeriesRule rules rule) ↔
      id = rule.identity ∨ id ∈ seriesRuleIdentities rules := by
  unfold upsertSeriesRule seriesRuleIdentities
  split
  · next hany =>
      simp only [List.any_eq_true, decide_eq_true_eq] at hany
      have hmap : (rules.map fun r => if r.identity = rule.identity then rule else r).map
          TimerRule.identity = rules.map TimerRule.identity := by
        rw [List.map_map]
        refine List.map_congr_left fun r _ => ?_
        simp only [Function.comp_apply]
        split
        · next h => exact h.symm
        · rfl
      rw [hmap]
      constructor
      · exact Or.inr
      · rintro (rfl | h)
        · obtain ⟨r, hr, heq⟩ := hany
          exact heq ▸ List.mem_map_of_mem hr
        · exact h
  · simp only [List.map_append, List.map_cons, List.map_nil, List.mem_append, List.mem_singleton]
    exact or_comm

/-- A delete loses what it removes. -/
theorem mem_identities_filter_removes {rules : List TimerRule} {query : SeriesRuleDeleteQuery}
    {id : SeriesRuleIdentity} :
    id ∈ seriesRuleIdentities (SeriesRuleRequest.serve rules (.delete query)) ↔
      id ∈ seriesRuleIdentities rules ∧ ¬ query.removes id := by
  simp only [SeriesRuleRequest.serve, seriesRuleIdentities, List.mem_map, List.mem_filter,
    decide_eq_true_eq]
  constructor
  · rintro ⟨rule, ⟨hmem, hkept⟩, rfl⟩; exact ⟨⟨rule, hmem, rfl⟩, hkept⟩
  · rintro ⟨⟨rule, hmem, rfl⟩, hkept⟩; exact ⟨rule, ⟨hmem, hkept⟩, rfl⟩

end DispatcharrPvr
