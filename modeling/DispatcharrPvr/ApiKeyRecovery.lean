import DispatcharrPvr.JsonFieldUtil
import DispatcharrPvr.Lib.Runs

/-!
# ApiKeyRecovery

How a client gets a working API key (`ObtainApiKey`): it reads the key the
account has and generates one only when there is none to read.  The server
keeps one key for each account, and every generate replaces it.

The clients run against one server, each request a step of its own: a lookup,
the generate it may call for, and the lookup that verifies the generated key.
-/

namespace DispatcharrPvr

/-- `ServerApiKeyState`. -/
inductive ServerApiKeyState where
  | present
  | none
  | unsupported
  | transientError
deriving DecidableEq, Repr

/-- `ServerApiKeyLookup`. -/
structure ServerApiKeyLookup where
  state : ServerApiKeyState := .transientError
  key : String := ""
deriving DecidableEq, Repr

/-- `std::isspace` in the C locale. -/
def isSpace (c : Char) : Bool :=
  c == ' ' || c == '\t' || c == '\n' || c == '\x0b' || c == '\x0c' || c == '\r'

/-- `ParseApiKeyListResponse`. -/
def parseApiKeyListResponse (response : Json) : ServerApiKeyLookup :=
  match response.at? "key" with
  | none => { state := .unsupported }
  | some .null => { state := .none }
  | some (.string value) =>
      if value.toList.all isSpace then { state := .none } else { state := .present, key := value }
  | some _ => { state := .unsupported }

/-- `ClassifyApiKeyLookupFailure`. -/
def classifyApiKeyLookupFailure (httpStatus : Int) : ServerApiKeyLookup :=
  let clientError := httpStatus ≥ 400 ∧ httpStatus < 500
  let transientClientError := httpStatus = 408 ∨ httpStatus = 429
  { state := if clientError ∧ ¬ transientClientError then .unsupported else .transientError }

/-- `ApiKeyRecoveryAction`. -/
inductive ApiKeyRecoveryAction where
  | useServerKey
  | generate
  | fail
deriving DecidableEq, Repr

/-- `DecideApiKeyRecovery`. -/
def decideApiKeyRecovery (lookup : ServerApiKeyLookup) : ApiKeyRecoveryAction :=
  match lookup.state with
  -- no parsed lookup is present with an empty key
  | .present => if lookup.key.isEmpty then .generate else .useServerKey
  | .none => .generate
  | .unsupported => .generate
  | .transientError => .fail

/-- `ReconcileGeneratedApiKey`, whether to adopt the server's key. -/
def reconcileGeneratedApiKey (generatedKey : String) (verification : ServerApiKeyLookup) : Bool :=
  verification.state == .present && !verification.key.isEmpty && verification.key != generatedKey

/-! ## the requests -/

/-- What a client sees of a lookup request. -/
inductive LookupReply where
  /-- The login ahead of the request failed. -/
  | loginFailed
  /-- `Request` failed; 0 is no answer, -1 a 401 whose login again failed. -/
  | failed (httpStatus : Int)
  | answered (response : Json)

namespace LookupReply

/-- `FetchCurrentApiKey`. -/
def lookup : LookupReply → ServerApiKeyLookup
  | .loginFailed => {}
  | .failed httpStatus => classifyApiKeyLookupFailure httpStatus
  | .answered response => parseApiKeyListResponse response

/-- The reply reports `key` as the account's. -/
def Reports (reply : LookupReply) (key : String) : Prop :=
  reply.lookup = { state := .present, key }

instance (reply : LookupReply) (key : String) : Decidable (reply.Reports key) :=
  inferInstanceAs (Decidable (_ = _))

/-- The login failed, or the server gave no answer, a 5xx, 408 or 429. -/
def Transient : LookupReply → Prop
  | .loginFailed => True
  | .failed httpStatus =>
      httpStatus = -1 ∨ httpStatus = 0 ∨ (500 ≤ httpStatus ∧ httpStatus < 600) ∨
        httpStatus = 408 ∨ httpStatus = 429
  | .answered _ => False

/-- The answer says that the account has no key, or that the server cannot
report it: a refusal, or an answer of some other shape. -/
def NoKey : LookupReply → Prop
  | .loginFailed => False
  | .failed httpStatus =>
      400 ≤ httpStatus ∧ httpStatus < 500 ∧ httpStatus ≠ 408 ∧ httpStatus ≠ 429
  | .answered response =>
      ∀ value, response.at? "key" = some (.string value) → value.toList.all isSpace = true

end LookupReply

/-- What a client sees of a generate request. -/
inductive GenerateReply where
  | loginFailed
  | failed
  | answered (response : Json)

namespace GenerateReply

/-- The key `GenerateApiKey` hands out, empty when it fails. -/
def key : GenerateReply → String
  | .loginFailed => ""
  | .failed => ""
  | .answered response => fieldOrString response "key" ""

/-- What the server can have performed when it gives the reply: nothing without
a login, and an answer that names a key names the one it made. -/
def Follows : GenerateReply → Option String → Prop
  | .loginFailed, performed => performed = none
  | .failed, _ => True
  | .answered response, performed =>
      fieldOrString response "key" "" ≠ "" → performed = some (fieldOrString response "key" "")

instance : (reply : GenerateReply) → (performed : Option String) →
    Decidable (reply.Follows performed)
  | .loginFailed, _ => inferInstanceAs (Decidable (_ = _))
  | .failed, _ => .isTrue trivial
  | .answered _, _ => inferInstanceAs (Decidable (_ → _))

end GenerateReply

/-! ## the clients and the server -/

/-- Where a client is in `ObtainApiKey`. -/
inductive RecoveryPhase where
  | idle
  | generating
  | verifying (generatedKey : String)
deriving DecidableEq, Repr

/-- The server's key and, of each client, where it is and `m_config.apiKey`. -/
structure ApiKeyState (Client : Type) where
  serverKey : Option String
  phase : Client → RecoveryPhase
  held : Client → String

/-- A request of one client, served.  A generate that was performed set the
server's key to `performed`, whether or not its answer arrived. -/
inductive ApiKeyEvent (Client : Type) where
  | lookup (client : Client) (reply : LookupReply)
  | generate (client : Client) (performed : Option String) (reply : GenerateReply)
  | verify (client : Client) (reply : LookupReply)

namespace ApiKeyState

variable {Client : Type} [DecidableEq Client]

/-- The client's own part of the state. -/
def setClient (s : ApiKeyState Client) (client : Client) (phase : RecoveryPhase) (held : String) :
    ApiKeyState Client :=
  { s with
    phase := fun c => if c = client then phase else s.phase c
    held := fun c => if c = client then held else s.held c }

/-- A key that a lookup reports is the one the server has. -/
def Honest (s : ApiKeyState Client) (reply : LookupReply) : Prop :=
  reply.lookup.state = .present → s.serverKey = some reply.lookup.key

instance (s : ApiKeyState Client) (reply : LookupReply) : Decidable (s.Honest reply) :=
  inferInstanceAs (Decidable (_ → _))

/-- The lookup of `ObtainApiKey` and the switch on it. -/
def afterLookup (s : ApiKeyState Client) (client : Client) (lookup : ServerApiKeyLookup) :
    ApiKeyState Client :=
  match decideApiKeyRecovery lookup with
  | .useServerKey => s.setClient client .idle lookup.key
  | .generate => s.setClient client .generating (s.held client)
  | .fail => s.setClient client .idle (s.held client)

/-- `GenerateApiKey`, once the server is done with the request. -/
def afterGenerate (s : ApiKeyState Client) (client : Client) (performed : Option String)
    (key : String) : ApiKeyState Client :=
  let served := { s with serverKey := performed.or s.serverKey }
  if key.isEmpty then served.setClient client .idle (s.held client)
  else served.setClient client (.verifying key) key

/-- The lookup that verifies a generated key. -/
def afterVerify (s : ApiKeyState Client) (client : Client) (generatedKey : String)
    (verification : ServerApiKeyLookup) : ApiKeyState Client :=
  s.setClient client .idle
    (if reconcileGeneratedApiKey generatedKey verification then verification.key
      else s.held client)

/-- One request served; a reply no server can give is not enabled. -/
def step (s : ApiKeyState Client) : ApiKeyEvent Client → Option (ApiKeyState Client)
  | .lookup client reply =>
      if s.phase client = .idle ∧ s.Honest reply then some (s.afterLookup client reply.lookup)
      else none
  | .generate client performed reply =>
      if s.phase client = .generating ∧ reply.Follows performed then
        some (s.afterGenerate client performed reply.key)
      else none
  | .verify client reply =>
      match s.phase client with
      | .verifying generatedKey =>
          if s.Honest reply then some (s.afterVerify client generatedKey reply.lookup) else none
      | _ => none

/-- The server and the clients before any request. -/
def start (serverKey : Option String) (held : Client → String) : ApiKeyState Client where
  serverKey
  phase := fun _ => .idle
  held

end ApiKeyState

end DispatcharrPvr
