import DispatcharrPvr.ChannelRenumbering
import Mathlib.Data.Rat.Floor

/-!
# ChannelNumber

The channels and groups of a lineup, and the text the guide is looked up by
(`FormatChannelGuideKey`).  A channel number is a finite `double`, so a
rational; what the stream of `ShortestRoundTripText` prints for one that is not
whole is a parameter.
-/

namespace DispatcharrPvr

/-- `Channel`. -/
structure Channel where
  id : Int := 0
  uuid : ByteString := []
  name : ByteString := []
  logoId : Int := -1
  channelNumber : Rat := 0
  hasChannelNumber : Bool := true
  groupId : Int := -1
  groupName : ByteString := []
  tvgId : ByteString := []
  epgDataId : Int := 0
  catchupEnabled : Bool := false
  catchupDays : Int := 0
  isRadio : Bool := false
deriving DecidableEq

/-- `ChannelGroup`. -/
structure ChannelGroup where
  id : Int := 0
  name : ByteString := []
deriving DecidableEq

/-- `kMaxGuideKeyMagnitude`. -/
def maxGuideKeyMagnitude : Rat := 1000000000000000

section GuideKeys

variable (shortestRoundTripText : Rat → ByteString)

/-- `GuideKeyText`. -/
def guideKeyText (value : Rat) : ByteString :=
  if |value| ≥ maxGuideKeyMagnitude then []
  else if value = ⌊value⌋ then toByteString ⌊value⌋
  else shortestRoundTripText value

/-- `FormatChannelGuideKey`. -/
def formatChannelGuideKey (hasChannelNumber : Bool) (value : Rat) (channelId : Int) : ByteString :=
  if !hasChannelNumber then toByteString channelId else guideKeyText shortestRoundTripText value

/-- `ChannelGuideKey`. -/
def channelGuideKey (channel : Channel) : ByteString :=
  formatChannelGuideKey shortestRoundTripText channel.hasChannelNumber channel.channelNumber
    channel.id

/-- What `HaveChannelNumbersChanged` reads of a channel. -/
def Channel.guideChannel (channel : Channel) : GuideChannel where
  id := channel.id
  guideKey := channelGuideKey shortestRoundTripText channel

end GuideKeys

end DispatcharrPvr
