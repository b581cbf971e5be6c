import DispatcharrPvr.RecurringRule

/-!
# ChannelRenumbering

Whether a new channel list moves a guide to another channel
(`HaveChannelNumbersChanged`).  A channel is its id and its `ChannelGuideKey`,
the text the guide is looked up by; an empty key is no key.
-/

namespace DispatcharrPvr

/-- A channel, as far as the guide is concerned. -/
structure GuideChannel where
  id : Int
  guideKey : ByteString
deriving DecidableEq, Repr

/-- `oldKeyById`: the last channel of an id decides. -/
def oldKeyById (oldChannels : List GuideChannel) (id : Int) : Option ByteString :=
  (oldChannels.reverse.find? (·.id == id)).map (·.guideKey)

/-- `oldIdsByKey`, which has no empty key. -/
def oldIdsByKey (oldChannels : List GuideChannel) (key : ByteString) : List Int :=
  if key.isEmpty then [] else (oldChannels.filter (·.guideKey == key)).map (·.id)

/-- Whether a channel of the new list has another key than before, or a key
that others had and it had not. -/
def isRenumbered (oldChannels : List GuideChannel) (channel : GuideChannel) : Bool :=
  ((oldKeyById oldChannels channel.id).any (· != channel.guideKey)) ||
    (!channel.guideKey.isEmpty && !(oldIdsByKey oldChannels channel.guideKey).isEmpty &&
      !(oldIdsByKey oldChannels channel.guideKey).contains channel.id)

/-- `HaveChannelNumbersChanged`. -/
def haveChannelNumbersChanged (oldChannels newChannels : List GuideChannel) : Bool :=
  newChannels.any (isRenumbered oldChannels)

end DispatcharrPvr
