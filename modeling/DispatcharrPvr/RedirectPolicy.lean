import DispatcharrPvr.Lib.Cut
import DispatcharrPvr.M3u8SegmentParser

/-!
# RedirectPolicy

Where credentials may be sent (`RedirectPolicy.cpp`): the scheme, host and port
of a URL, the rule for a URL taken from a playlist, and the redirects a request
with credentials follows (`PerformWithSafeRedirects`).

A URL handed to libcurl is a C string: `cString` is what is left of a
`std::string` there.
-/

namespace DispatcharrPvr

open Cut

/-! ## StringUtil -/

/-- `AsciiToLower`. -/
def asciiToLower (c : UInt8) : UInt8 := if 65 ≤ c ∧ c ≤ 90 then c + 32 else c

/-- `ToLower`. -/
def toLower (s : ByteString) : ByteString := s.map asciiToLower

/-- `FormatHostForUrl`: an IPv6 address gets its brackets. -/
def formatHostForUrl (host : ByteString) : ByteString :=
  if host.isEmpty ∨ host.head? = some 91 ∨ 58 ∉ host then host else 91 :: host ++ [93]

/-- `std::string::c_str` as a C function reads it. -/
def cString (s : ByteString) : ByteString := s.takeWhile (· != 0)

/-! ## ParseUrlOrigin -/

/-- `UrlOrigin`. -/
structure UrlOrigin where
  valid : Bool := false
  scheme : ByteString := []
  host : ByteString := []
  port : Int := 0
  hasUserInfo : Bool := false
deriving DecidableEq, Repr

/-- The bytes that end the authority: slash, question mark, number sign. -/
def isAuthorityEnd (b : UInt8) : Bool := b == 47 || b == 63 || b == 35

/-- `std::isdigit`. -/
def isDigit (b : UInt8) : Bool := decide (48 ≤ b) && decide (b ≤ 57)

/-- `std::atoi` of digits. -/
def atoi (digits : ByteString) : Int :=
  digits.foldl (fun n b => n * 10 + (b.toNat - 48 : Nat)) 0

/-- Whether an authority names a user, and what follows the last at sign. -/
def splitUserInfo (authority : ByteString) : Bool × ByteString :=
  match cutLast 64 authority with
  | none => (false, authority)
  | some (_, afterUserInfo) => (true, afterUserInfo)

/-- The host and the port's text, of an authority without its user info. -/
def splitHostPort (authority : ByteString) : Option (ByteString × ByteString) :=
  if authority.head? = some 91 then
    match cutFirst [93] (authority.drop 1) with
    | none => none
    | some (host, rest) =>
        match rest with
        | [] => some (host, [])
        | colon :: portText => if colon = 58 then some (host, portText) else none
  else
    match cutFirst [58] authority with
    | none => some (authority, [])
    | some (host, portText) => some (host, portText)

/-- The port a port's text stands for: the scheme's own when there is none. -/
def parsePort (scheme portText : ByteString) : Option Int :=
  if portText.isEmpty then some (if scheme = ascii "https" then 443 else 80)
  else if !portText.all isDigit then none
  else if portText.length > 5 then none
  else
    let port := atoi portText
    if port < 1 ∨ port > 65535 then none else some port

/-- `ParseUrlOrigin`. -/
def parseUrlOrigin (url : ByteString) : UrlOrigin :=
  match cutFirst (ascii "://") url with
  | none => {}
  | some (schemeText, afterScheme) =>
      let scheme := toLower schemeText
      if scheme ≠ ascii "http" ∧ scheme ≠ ascii "https" then {}
      else
        let authority := afterScheme.takeWhile fun b => !isAuthorityEnd b
        let (hasUserInfo, authority) := splitUserInfo authority
        match splitHostPort authority with
        | none => { hasUserInfo }
        | some (host, portText) =>
            if host.isEmpty then { hasUserInfo }
            else
              match parsePort scheme portText with
              | none => { hasUserInfo }
              | some port => { valid := true, scheme, host := toLower host, port, hasUserInfo }

/-- `IsSafeRedirectTarget`. -/
def isSafeRedirectTarget (fromUrl toUrl : ByteString) : Bool :=
  let source := parseUrlOrigin fromUrl
  let target := parseUrlOrigin toUrl
  if !source.valid || !target.valid || target.hasUserInfo then false
  else if source.host ≠ target.host then false
  else if source.scheme = ascii "https" ∧ target.scheme = ascii "http" then false
  else true

/-- `IsSameOrigin`. -/
def isSameOrigin (urlA urlB : ByteString) : Bool :=
  let a := parseUrlOrigin urlA
  let b := parseUrlOrigin urlB
  if !a.valid || !b.valid || a.hasUserInfo || b.hasUserInfo then false
  else a.scheme == b.scheme && a.host == b.host && a.port == b.port

/-! ## redirects -/

/-- `RedirectFollowAction`. -/
inductive RedirectFollowAction where
  | notARedirect
  | tooManyRedirects
  | follow
  | followAsGet
deriving DecidableEq, Repr

/-- `DecideRedirectFollow`. -/
def decideRedirectFollow (httpCode hop maxRedirects : Int) (switchPostToGet : Bool) :
    RedirectFollowAction :=
  let switchesToGet := httpCode == 301 || httpCode == 302 || httpCode == 303
  if !switchesToGet && httpCode != 307 && httpCode != 308 then .notARedirect
  else if hop ≥ maxRedirects then .tooManyRedirects
  else if switchPostToGet && switchesToGet then .followAsGet
  else .follow

/-- `RedirectStep`. -/
inductive RedirectStep where
  | returnResponse
  | refuseUnsafe
  | failTooMany
  | follow
  | followAsGet
deriving DecidableEq, Repr

/-- `DecideRedirectStep`. -/
def decideRedirectStep (httpCode hop maxRedirects : Int)
    (switchPostToGet hasLocation targetIsSafe : Bool) : RedirectStep :=
  let action := decideRedirectFollow httpCode hop maxRedirects switchPostToGet
  if action = .notARedirect ∨ !hasLocation then .returnResponse
  else if !targetIsSafe then .refuseUnsafe
  else if action = .tooManyRedirects then .failTooMany
  else if action = .followAsGet then .followAsGet
  else .follow

/-- `kMaxRedirects`. -/
def maxRedirects : Nat := 5

/-- How one request of the chain ends: no answer, or a status and the
`CURLINFO_REDIRECT_URL`, empty when there is none. -/
inductive RedirectReply where
  | failed
  | answered (httpCode : Int) (location : ByteString)
deriving DecidableEq, Repr

/-- One request with credentials, and whether it is made as a GET. -/
structure CredentialRequest where
  url : ByteString
  asGet : Bool := false
deriving DecidableEq, Repr

/-- The loop of `PerformWithSafeRedirects`: the requests it makes while the
server answers with `replies`. -/
def performFrom (switchPostToGet : Bool) (hop : Nat) (current : CredentialRequest) :
    List RedirectReply → List CredentialRequest
  | [] => [current]
  | .failed :: _ => [current]
  | .answered httpCode location :: replies =>
      let hasLocation := !location.isEmpty
      match decideRedirectStep httpCode hop maxRedirects switchPostToGet hasLocation
          (hasLocation && isSafeRedirectTarget current.url location) with
      | .returnResponse => [current]
      | .refuseUnsafe => [current]
      | .failTooMany => [current]
      | .followAsGet =>
          current :: performFrom switchPostToGet (hop + 1) ⟨location, true⟩ replies
      | .follow =>
          current :: performFrom switchPostToGet (hop + 1) { current with url := location } replies

/-- `PerformWithSafeRedirects`. -/
def performWithSafeRedirects (startUrl : ByteString) (switchPostToGet : Bool)
    (replies : List RedirectReply) : List CredentialRequest :=
  performFrom switchPostToGet 0 { url := startUrl } replies

/-! ## the configured server -/

/-- The address of the server as configured.  Kodi hands a setting over as a C
string. -/
structure ServerConfig where
  useHttps : Bool
  host : ByteString
  port : Int
  no_nul : 0 ∉ host

namespace ServerConfig

/-- `BaseUrl`. -/
def baseUrl (config : ServerConfig) : ByteString :=
  let scheme := if config.useHttps then ascii "https://" else ascii "http://"
  scheme ++ formatHostForUrl config.host ++ ascii ":" ++ toByteString config.port

/-- `IsOnConfiguredServer`. -/
def isOnConfiguredServer (config : ServerConfig) (url : ByteString) : Bool :=
  isSameOrigin url config.baseUrl

/-- A request for a segment with the API key, when the segment is on the
configured server. -/
def segmentRequest (config : ServerConfig) (segmentUrl : ByteString) : Option CredentialRequest :=
  if !config.isOnConfiguredServer segmentUrl then none else some { url := cString segmentUrl }

/-- The request of `ProbeSegmentByteSize`. -/
def probeSegmentByteSize (config : ServerConfig) (segmentUrl : ByteString) :
    Option CredentialRequest :=
  config.segmentRequest segmentUrl

/-- The request of `MaybeSendInProgressHlsKeepAlive`, when one is due. -/
def sendInProgressHlsKeepAlive (config : ServerConfig) (newestSegmentUrl : ByteString) :
    Option CredentialRequest :=
  config.segmentRequest newestSegmentUrl

/-- The segment fetch of `ReadInProgressRecordingStream`, when it is not cached. -/
def readInProgressSegment (config : ServerConfig) (segmentUrl : ByteString) :
    Option CredentialRequest :=
  config.segmentRequest segmentUrl

end ServerConfig

end DispatcharrPvr
