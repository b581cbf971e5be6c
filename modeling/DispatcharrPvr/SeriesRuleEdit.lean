import DispatcharrPvr.SeriesRuleServer

/-!
# SeriesRuleEdit

The series branches of `PVRDispatcharr::UpdateTimer` and `DeleteTimer`: an edit
creates the rule anew and, when that is a new identity, deletes the old one.

How each request ends is given from outside, and so is what the lookup of a
channel's EPG data answers.  What a branch does is the requests it sends in
their order, the warnings it shows, and its error.
-/

namespace DispatcharrPvr

/-- The fields of `kodi::addon::PVRTimer` an edit of a series rule reads. -/
structure KodiSeriesTimer where
  clientIndex : UInt32
  clientChannelUid : Int
  epgSearchString : ByteString
  title : ByteString
  preventDuplicateEpisodes : Nat
deriving DecidableEq, Repr

/-- The fields of `Channel` a tvg_id is resolved from. -/
structure SeriesRuleChannel where
  id : Int
  epgDataId : Int
  tvgId : ByteString
deriving DecidableEq, Repr

/-- What the two branches are given: the cached rules and channels, the
`tvg_id` of the answer to an EPG data lookup (`none` when it fails, empty when
the answer has none), and how the requests end. -/
structure SeriesRuleWorld where
  rules : List TimerRule
  channels : List SeriesRuleChannel
  epgData : Int → Option ByteString
  createOutcome : RequestOutcome
  evaluateOutcome : RequestOutcome
  deleteOutcome : RequestOutcome

/-- What a branch did. -/
structure SeriesRuleRun where
  requests : List SentSeriesRuleRequest := []
  notifications : List String := []
  /-- The error of a branch that refuses. -/
  refusal : Option String := none
  ok : Bool
deriving DecidableEq, Repr

/-! ## the texts -/

def titlelessEditNotification : String :=
  "This series rule has no title filter (it matches on the description), so its search " ++
    "text or channel cannot be changed from Kodi. Change it in Dispatcharr."

def titlelessEditError : String :=
  "a series rule with no title can only be re-keyed in Dispatcharr"

def oldRuleKeptNotification : String :=
  "The edited series rule was saved, but the old one was left in place (another rule " ++
    "shares its title) -- delete it in Dispatcharr if you no longer want it."

def oldRuleNotRemovedNotification : String :=
  "The edited series rule was saved, but the old one could not be removed -- delete it manually."

def ruleNotFoundError : String := "the series rule was not found on the server"

def titlelessDeleteNotification : String :=
  "This series rule has no title filter (it matches on the description). Deleting it " ++
    "from Kodi could remove other upcoming recordings, so it was left in place -- delete " ++
    "it in Dispatcharr."

def titlelessDeleteError : String :=
  "a series rule with no title can only be deleted in Dispatcharr"

def pinnedSiblingError : String :=
  "another series rule with the same title is pinned to an EPG source; delete it in Dispatcharr"

/-! ## the client's calls -/

/-- `DispatcharrClient::ResolveSeriesRuleTvgId`. -/
def resolveSeriesRuleTvgId (epgData : Int → Option ByteString) (epgDataId : Int)
    (fallbackTvgId : ByteString) : ByteString :=
  if epgDataId ≤ 0 then fallbackTvgId
  else
    match epgData epgDataId with
    | none => fallbackTvgId
    | some resolvedTvgId => if resolvedTvgId.isEmpty then fallbackTvgId else resolvedTvgId

/-- The requests of `DispatcharrClient::CreateSeriesRule`. -/
def createSeriesRule (w : SeriesRuleWorld) (body : SeriesRuleRequestBody) :
    List SentSeriesRuleRequest :=
  ⟨.create body, w.createOutcome⟩ ::
    if w.createOutcome.isOk then [⟨.evaluate body.tvgId, w.evaluateOutcome⟩] else []

/-- The request of `DispatcharrClient::DeleteSeriesRule`. -/
def deleteSeriesRule (w : SeriesRuleWorld) (rule : TimerRule) : SentSeriesRuleRequest :=
  ⟨.delete (buildSeriesRuleDeleteQuery rule.title rule.tvgId rule.epgSourceId), w.deleteOutcome⟩

/-! ## UpdateTimer -/

variable (hash : ByteString → UInt64) (w : SeriesRuleWorld) (timer : KodiSeriesTimer)

/-- The rule as it was before the edit. -/
def oldSeriesRule : Option TimerRule :=
  findSeriesRuleByClientIndex hash w.rules timer.clientIndex

/-- The tvg_id of the timer's channel as it is now; empty without one. -/
def channelTvgId : ByteString :=
  match w.channels.find? (·.id == timer.clientChannelUid) with
  | none => []
  | some channel => resolveSeriesRuleTvgId w.epgData channel.epgDataId channel.tvgId

/-- The tvg_id the edit sends: the rule's own unless the channel changed. -/
def editedTvgId : ByteString :=
  match oldSeriesRule hash w timer with
  | some old =>
      if isSameSeriesRuleChannel old.channelId timer.clientChannelUid then old.tvgId
      else channelTvgId w timer
  | none => channelTvgId w timer

/-- The EPG source the edit sends. -/
def editedEpgSourceId : Int :=
  match oldSeriesRule hash w timer with
  | some old => resolveSeriesRuleSourceOnEdit old.tvgId (editedTvgId hash w timer) old.epgSourceId
  | none => 0

/-- The title the edit sends. -/
def editedTitle : ByteString := resolveSeriesRuleMatchTitle timer.epgSearchString timer.title

/-- What the edit sends; the fields Kodi does not show are the old rule's. -/
def editedBody : SeriesRuleRequestBody :=
  let old := oldSeriesRule hash w timer
  buildSeriesRuleRequestBody timer.clientChannelUid (editedTvgId hash w timer) (editedTitle timer)
    (timer.preventDuplicateEpisodes != 0) (old.elim [] (·.titleMode)) (old.elim [] (·.description))
    (old.elim [] (·.descriptionMode)) (old.elim false (·.untaggedIsNew))
    (editedEpgSourceId hash w timer)

/-- Whether the edit is a new identity for `old`. -/
def editReplaces (old : TimerRule) : Bool :=
  shouldReplaceSeriesRuleOnEdit old.title old.tvgId old.epgSourceId (editedTitle timer)
    (editedTvgId hash w timer) (editedEpgSourceId hash w timer)

/-- The removal of a rule that was replaced, behind the requests `sent`. -/
def removeReplacedRule (sent : List SentSeriesRuleRequest) (old : TimerRule) : SeriesRuleRun :=
  if old.epgSourceId ≤ 0 ∧ hasPinnedSiblingSeriesRule w.rules old.title old.tvgId = true then
    { requests := sent, notifications := [oldRuleKeptNotification], ok := true }
  else
    { requests := sent ++ [deleteSeriesRule w old]
      notifications := if w.deleteOutcome.isOk then [] else [oldRuleNotRemovedNotification]
      ok := true }

/-- The series branch of `UpdateTimer`. -/
def updateSeriesTimer : SeriesRuleRun :=
  let sent := createSeriesRule w (editedBody hash w timer)
  match oldSeriesRule hash w timer with
  | some old =>
      if editReplaces hash w timer old ∧ ¬ isSeriesRuleSafeToDeleteFromKodi old.title then
        { notifications := [titlelessEditNotification], refusal := some titlelessEditError
          ok := false }
      else if w.createOutcome.isOk ∧ editReplaces hash w timer old then
        removeReplacedRule w sent old
      else { requests := sent, ok := w.createOutcome.isOk }
  | none => { requests := sent, ok := w.createOutcome.isOk }

/-! ## DeleteTimer -/

/-- The series branch of `DeleteTimer`. -/
def deleteSeriesTimer (clientIndex : UInt32) : SeriesRuleRun :=
  match findSeriesRuleByClientIndex hash w.rules clientIndex with
  | none => { refusal := some ruleNotFoundError, ok := false }
  | some cached =>
      if ¬ isSeriesRuleSafeToDeleteFromKodi cached.title then
        { notifications := [titlelessDeleteNotification], refusal := some titlelessDeleteError
          ok := false }
      else if cached.epgSourceId ≤ 0 ∧
          hasPinnedSiblingSeriesRule w.rules cached.title cached.tvgId = true then
        { refusal := some pinnedSiblingError, ok := false }
      else { requests := [deleteSeriesRule w cached], ok := w.deleteOutcome.isOk }

/-! ## what the user asks for -/

/-- An edit or a delete of a series rule from Kodi. -/
inductive SeriesRuleAction
  | edit (timer : KodiSeriesTimer)
  | delete (clientIndex : UInt32)
deriving DecidableEq, Repr

namespace SeriesRuleAction

/-- The index of the rule it is about. -/
def clientIndex : SeriesRuleAction → UInt32
  | .edit timer => timer.clientIndex
  | .delete clientIndex => clientIndex

/-- The identity an edit leaves. -/
def newIdentity : SeriesRuleAction → Option SeriesRuleIdentity
  | .edit timer => some (editedBody hash w timer).rule.identity
  | .delete _ => none

def run : SeriesRuleAction → SeriesRuleRun
  | .edit timer => updateSeriesTimer hash w timer
  | .delete clientIndex => deleteSeriesTimer hash w clientIndex

end SeriesRuleAction

end DispatcharrPvr
