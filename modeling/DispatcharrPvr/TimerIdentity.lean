import DispatcharrPvr.RecurringRule
import Mathlib.Data.List.Nodup

/-!
# TimerIdentity

Series rules have no id on the server: a rule is known by its title, its tvg_id
and the EPG source it is pinned to.  This module has that identity, the
`ClientIndex` Kodi knows a rule by, and the decisions of `TimerIdentity.h` that
an edit or a delete of a rule rests on.

`std::hash<std::string>` is a parameter: nothing is known of it.
-/

namespace DispatcharrPvr

/-- `TimerRule`, the fields a series rule has. -/
structure TimerRule where
  channelId : Int := 0
  tvgId : ByteString := []
  title : ByteString := []
  recordNewOnly : Bool := false
  titleMode : ByteString := ascii "exact"
  description : ByteString := []
  descriptionMode : ByteString := ascii "contains"
  untaggedIsNew : Bool := false
  epgSourceId : Int := 0
deriving DecidableEq, Repr

/-- What the server tells rules apart by; a source of 0 is no source. -/
structure SeriesRuleIdentity where
  title : ByteString
  tvgId : ByteString
  epgSource : Nat
deriving DecidableEq, Repr

/-- Any non-positive source is "unpinned". -/
def TimerRule.identity (rule : TimerRule) : SeriesRuleIdentity :=
  ⟨rule.title, rule.tvgId, rule.epgSourceId.toNat⟩

/-! ## the ClientIndex -/

/-- `kSeriesRuleIndexFlag`. -/
def kSeriesRuleIndexFlag : UInt32 := 0x40000000

/-- `ComputeSeriesRuleClientIndex`. -/
def computeSeriesRuleClientIndex (hash : ByteString → UInt64) (title tvgId : ByteString)
    (epgSourceId : Int) : UInt32 :=
  let normalizedEpgSourceId := if epgSourceId > 0 then epgSourceId else 0
  let h := hash (title ++ [0x1f] ++ tvgId ++ [0x1f] ++ toByteString normalizedEpgSourceId)
  (h.toUInt32 &&& 0x3FFFFFFF) ||| kSeriesRuleIndexFlag

/-- The index `GetTimers` reports a rule under. -/
def TimerRule.clientIndex (hash : ByteString → UInt64) (rule : TimerRule) : UInt32 :=
  computeSeriesRuleClientIndex hash rule.title rule.tvgId rule.epgSourceId

/-- No two rules of the list share a `ClientIndex`. -/
def NoClientIndexCollision (hash : ByteString → UInt64) (rules : List TimerRule) : Prop :=
  (rules.map (TimerRule.clientIndex hash)).Nodup

instance (hash : ByteString → UInt64) (rules : List TimerRule) :
    Decidable (NoClientIndexCollision hash rules) :=
  inferInstanceAs (Decidable (List.Nodup _))

/-- The rule `FindSeriesRuleIndexByClientIndex` finds. -/
def findSeriesRuleByClientIndex (hash : ByteString → UInt64) (rules : List TimerRule)
    (clientIndex : UInt32) : Option TimerRule :=
  rules.find? fun rule => rule.clientIndex hash == clientIndex

theorem clientIndex_eq_of_identity_eq (hash : ByteString → UInt64) {a b : TimerRule}
    (h : a.identity = b.identity) : a.clientIndex hash = b.clientIndex hash := by
  obtain ⟨htitle, htvg, hsource⟩ := SeriesRuleIdentity.mk.inj h
  have hnormal : (if a.epgSourceId > 0 then a.epgSourceId else 0) =
      if b.epgSourceId > 0 then b.epgSourceId else 0 := by
    omega
  simp only [TimerRule.clientIndex, computeSeriesRuleClientIndex, htitle, htvg, hnormal]

/-- Without collisions the rule found for an index is the only one under it. -/
theorem eq_of_clientIndex_eq {hash : ByteString → UInt64} {rules : List TimerRule}
    (hdistinct : NoClientIndexCollision hash rules) {a b : TimerRule} (ha : a ∈ rules)
    (hb : b ∈ rules) (h : a.clientIndex hash = b.clientIndex hash) : a = b :=
  List.inj_on_of_nodup_map hdistinct ha hb h

theorem findSeriesRuleByClientIndex_eq_some {hash : ByteString → UInt64} {rules : List TimerRule}
    {clientIndex : UInt32} {rule : TimerRule}
    (h : findSeriesRuleByClientIndex hash rules clientIndex = some rule) :
    rule ∈ rules ∧ rule.clientIndex hash = clientIndex :=
  ⟨List.mem_of_find?_eq_some h, by simpa using List.find?_some h⟩

theorem clientIndex_ne_of_findSeriesRule_eq_none {hash : ByteString → UInt64}
    {rules : List TimerRule} {clientIndex : UInt32}
    (h : findSeriesRuleByClientIndex hash rules clientIndex = none) {rule : TimerRule}
    (hmem : rule ∈ rules) : rule.clientIndex hash ≠ clientIndex := by
  have := List.find?_eq_none.mp h rule hmem
  simpa using this

/-! ## the decisions -/

/-- `ResolveSeriesRuleMatchTitle`. -/
def resolveSeriesRuleMatchTitle (epgSearchString title : ByteString) : ByteString :=
  if epgSearchString.isEmpty then title else epgSearchString

/-- `HasPinnedSiblingSeriesRule`. -/
def hasPinnedSiblingSeriesRule (rules : List TimerRule) (title tvgId : ByteString) : Bool :=
  rules.any fun rule => rule.title == title && rule.tvgId == tvgId && rule.epgSourceId > 0

/-- `ResolveSeriesRuleSourceOnEdit`. -/
def resolveSeriesRuleSourceOnEdit (oldTvgId newTvgId : ByteString) (oldEpgSourceId : Int) : Int :=
  if oldEpgSourceId ≤ 0 then 0
  else if oldTvgId = newTvgId then oldEpgSourceId else 0

/-- `ShouldReplaceSeriesRuleOnEdit`, the one with the sources. -/
def shouldReplaceSeriesRuleOnEdit (oldTitle oldTvgId : ByteString) (oldEpgSourceId : Int)
    (newTitle newTvgId : ByteString) (newEpgSourceId : Int) : Bool :=
  if oldTitle ≠ newTitle ∨ oldTvgId ≠ newTvgId then true
  else
    let oldSource := if oldEpgSourceId > 0 then oldEpgSourceId else 0
    let newSource := if newEpgSourceId > 0 then newEpgSourceId else 0
    decide (oldSource > 0 ∧ oldSource ≠ newSource)

/-- `IsSeriesRuleSafeToDeleteFromKodi`. -/
def isSeriesRuleSafeToDeleteFromKodi (title : ByteString) : Bool := !title.isEmpty

/-- `IsSameSeriesRuleChannel`. -/
def isSameSeriesRuleChannel (cachedChannelId timerChannelUid : Int) : Bool :=
  if cachedChannelId ≤ 0 ∨ timerChannelUid ≤ 0 then
    decide (cachedChannelId ≤ 0 ∧ timerChannelUid ≤ 0)
  else cachedChannelId == timerChannelUid

theorem hasPinnedSiblingSeriesRule_eq_false {rules : List TimerRule} {title tvgId : ByteString}
    (h : hasPinnedSiblingSeriesRule rules title tvgId = false) {rule : TimerRule}
    (hmem : rule ∈ rules) (htitle : rule.title = title) (htvg : rule.tvgId = tvgId) :
    rule.epgSourceId ≤ 0 := by
  have := (List.any_eq_false.mp h) rule hmem
  simpa [htitle, htvg] using this

/-- What an edit that is not a replacement keeps, but for an unpinned rule the
source. -/
theorem shouldReplaceSeriesRuleOnEdit_eq_false_iff {oldTitle oldTvgId newTitle newTvgId : ByteString}
    {oldEpgSourceId newEpgSourceId : Int} :
    shouldReplaceSeriesRuleOnEdit oldTitle oldTvgId oldEpgSourceId newTitle newTvgId
        newEpgSourceId = false ↔
      oldTitle = newTitle ∧ oldTvgId = newTvgId ∧
        (0 < oldEpgSourceId → oldEpgSourceId = newEpgSourceId) := by
  unfold shouldReplaceSeriesRuleOnEdit
  by_cases htitle : oldTitle = newTitle
  · by_cases htvg : oldTvgId = newTvgId
    · simp only [htitle, htvg, ne_eq, not_true_eq_false, or_self, if_false, true_and,
        decide_eq_false_iff_not]
      split <;> split <;> omega
    · simp [htitle, htvg]
  · simp [htitle]

end DispatcharrPvr
