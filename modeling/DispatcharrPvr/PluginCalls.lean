import DispatcharrPvr.RecordingParser
import DispatcharrPvr.RedirectPolicy

/-!
# PluginCalls

What a call of a plugin answers (`PluginRunResult.cpp`), and the URLs of the
timeshift plugin's own file server (`PluginUrlUtil.cpp`).
-/

namespace DispatcharrPvr

/-! ## PluginRunResult -/

/-- `UnwrapPluginRunResult`: `resultOut`, and `error` where it returns false. -/
def unwrapPluginRunResult (response : Json) (pluginLabel : String) :
    Json × Option String :=
  if !fieldOrBool response "success" false then
    (.null, some (fieldOrString response "error" (pluginLabel ++ " plugin call did not succeed")))
  else
    let result := (response.at? "result").getD .null
    if fieldOrString result "status" "" ≠ "ok" then
      (result, some (fieldOrString result "message" (pluginLabel ++ " plugin returned an error")))
    else (result, none)

/-! ## PluginUrlUtil -/

/-- The characters that a route may not have. -/
def isRefusedInRoute (c : UInt8) : Bool :=
  decide (c ≤ 0x20) || c == 0x7F || c == 64 || c == 92 || c == 35

/-- `IsValidTimeshiftRoute`. -/
def isValidTimeshiftRoute : ByteString → Bool
  | 47 :: 47 :: _ => false
  | 47 :: rest => !rest.any isRefusedInRoute
  | _ => false

/-- `IsValidTimeshiftPort`. -/
def isValidTimeshiftPort (port : Int) : Bool := decide (1 ≤ port) && decide (port ≤ 65535)

/-- `BuildTimeshiftSegmentBaseUrl`. -/
def buildTimeshiftSegmentBaseUrl (host : ByteString) (httpPort : Int)
    (segmentRoutePrefix : ByteString) : ByteString :=
  ascii "http://" ++ formatHostForUrl host ++ ascii ":" ++ toByteString httpPort ++
    segmentRoutePrefix

/-- `BuildTimeshiftPlaylistUrl`. -/
def buildTimeshiftPlaylistUrl (host : ByteString) (httpPort : Int)
    (playlistRoute accessToken : ByteString) : ByteString :=
  let url := buildTimeshiftSegmentBaseUrl host httpPort playlistRoute
  if accessToken.isEmpty then url
  else url ++ (if 63 ∈ url then ascii "&token=" else ascii "?token=") ++ accessToken

/-- `BuildTimeshiftSegmentUrl`. -/
def buildTimeshiftSegmentUrl (segmentBaseUrl filename accessToken viewerId : ByteString)
    (redactToken : Bool) : ByteString :=
  let url := segmentBaseUrl ++ filename ++ ascii "?token=" ++
    (if redactToken then ascii "REDACTED" else accessToken)
  if viewerId.isEmpty then url else url ++ ascii "&viewer_id=" ++ viewerId

/-- `IsTimeshiftFileServerReachable`. -/
def isTimeshiftFileServerReachable (transferOk : Bool) (httpCode : Int) : Bool :=
  transferOk && decide (0 < httpCode)

/-- `BuildTimeshiftFileServerUnreachableMessage`. -/
def buildTimeshiftFileServerUnreachableMessage (httpPort : Int) : String :=
  "Can't reach Dispatcharr's timeshift file server on port " ++ toString httpPort ++
    ". Publish that port and make it match the plugin's http_port setting."

/-- `IsDispatcharrOutOfReach`. -/
def isDispatcharrOutOfReach (refreshHttpStatus : Int) : Bool :=
  refreshHttpStatus == 0 || (decide (500 ≤ refreshHttpStatus) && decide (refreshHttpStatus < 600))

/-- `BuildLiveFileServerLostMessage`. -/
def buildLiveFileServerLostMessage (httpPort : Int) (serverOutOfReach : Bool) : String :=
  if !serverOutOfReach then buildTimeshiftFileServerUnreachableMessage httpPort
  else "Can't reach the Dispatcharr server, so this channel stopped. " ++
    "Play it again once the server is back."

end DispatcharrPvr
