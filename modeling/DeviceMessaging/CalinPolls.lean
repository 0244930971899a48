import DeviceMessaging.JsValues
import DeviceMessaging.PluginCatalog

namespace DeviceMessaging

section TaskTypes

inductive TaskType
  | READ | CONTROL | WRITE | TOKEN
  deriving DecidableEq

def CommandType.taskType (commandType : CommandType) : Option TaskType :=
  match commandType with
  | readVoltage | readCurrent | readPower | readPowerLimit | readCredit | readVersion | readDate
  | readTime => some .READ
  | turnOn | turnOff => some .CONTROL
  | setDate | setTime => some .WRITE
  | clearCredit | clearTamper | setPowerLimit | topUpKwh | deliverPreexistingToken => some .TOKEN
  | readReport | joinNetwork => none

/-- Of the stored command type, which may be missing. -/
def taskTypeOf (commandType : Option CommandType) : Option TaskType :=
  commandType.bind CommandType.taskType

end TaskTypes

section Fetches

/-- What a `fetch` throws: a value, or an object with what the clients read of it. -/
inductive Raised
  | value
  | object (name : Option String) (code : Option ErrorCode) (cause : Raised)

structure HttpResponse where
  status : Nat
  contentType : Option String := none
  json : Except Raised JsValue

def HttpResponse.ok (response : HttpResponse) : Prop :=
  200 ≤ response.status ∧ response.status ≤ 299

instance (response : HttpResponse) : Decidable response.ok :=
  inferInstanceAs (Decidable (_ ∧ _))

inductive Fetched
  | rejected (err : Raised)
  | answered (response : HttpResponse)

/-- The answers to the calls a poll makes, in their order. -/
abbrev Network := Nat → Fetched

/-- No call gets an HTTP answer. -/
def Unreachable (network : Network) : Prop :=
  ∀ n, ∃ err, network n = .rejected err

/-- The rest of `fetchStatus`, for the body of a task that the vendor answered with. -/
abbrev ReadResult := DeviceMessage → JsValue → Except VendorError (Option ParsedIncomingEvent)

def statusCheckFailed (message : DeviceMessage) (err : VendorError) : ParsedIncomingEvent where
  commandType := message.commandType
  deliveryQueueId := some message.deliveryQueueId
  deliveryStatus := .DELIVERY_FAILED
  device := message.device
  failureContext := some {
    reason := "Could not check task status because " ++ err.message
    errorCode := err.code }

end Fetches

namespace CalinApiV1

def TRANSPORT_CODES : List String :=
  ["ECONNREFUSED", "ECONNRESET", "ETIMEDOUT", "EAI_AGAIN", "ENOTFOUND", "EHOSTUNREACH",
    "ENETUNREACH", "EPIPE"]

def errnoOf (err : Raised) : Option String :=
  match err with
  | .object _ (some (.text code)) _ => some code
  | _ => none

def getNetworkErrorCode (err : Raised) : Option String :=
  match err with
  | .value => none
  | .object _ (some (.text code)) _ => some code
  | .object _ _ cause => errnoOf cause

def isAbortTimeoutWithin (levels : Nat) (err : Raised) : Bool :=
  match levels, err with
  | 0, _ | _, .value => false
  | levels + 1, .object name _ cause =>
    name = some "TimeoutError" || name = some "AbortError" || isAbortTimeoutWithin levels cause

def isAbortTimeout (err : Raised) : Bool :=
  isAbortTimeoutWithin 4 err

def isTransportCode (code : String) : Bool :=
  code ∈ TRANSPORT_CODES || "UND_ERR_".toList.isPrefixOf code.toList

def transportCodeOf (err : Raised) : Option String :=
  let code := getNetworkErrorCode err
  if code.any isTransportCode then code
  else if isAbortTimeout err then some (code.getD "TimeoutError")
  else none

def messageForTransport (code : String) : String :=
  if code = "ECONNREFUSED" then "[CALIN API-V1] could not be reached, connection was refused"
  else if code = "ECONNRESET" then "[CALIN API-V1] abruptly closed its end of the connection"
  else "[CALIN API-V1] could not be reached"

def calinApiV1Error (message : String) (code : Option ErrorCode) : VendorError where
  message := message
  code := code
  isOwn := true

/-- What `sendRequest` makes of an error that is not its own. -/
def fetchFailed (err : Raised) : VendorError :=
  match transportCodeOf err with
  | some code => calinApiV1Error (messageForTransport code) (some (.text code))
  | none => calinApiV1Error "[CALIN API-V1] is down" ((getNetworkErrorCode err).map .text)

/-- `String(responseMessage)` of the body's `Message`, as far as there is one. -/
def responseMessage (json : Except Raised JsValue) : Js (List Char) :=
  match json with
  | .error _ => pure "undefined".toList
  | .ok errBody =>
    match property errBody "Message" with
    | .ok (some message) => toText message
    | _ => pure "undefined".toList

def notOk (response : HttpResponse) : VendorError :=
  match responseMessage response.json with
  | .ok text => calinApiV1Error ("[CALIN API-V1] is down: " ++ String.ofList text)
      (some (.number response.status))
  | .error _ => fetchFailed (.object (some "TypeError") none .value)

def sendRequest (fetched : Fetched) : Except VendorError JsValue :=
  match fetched with
  | .rejected err => throw (fetchFailed err)
  | .answered response =>
    if response.contentType.any (isInfixOf "text/html") then
      throw (calinApiV1Error "[CALIN API-V1] responded with a HTML page.."
        (some (.number response.status)))
    else if response.ok then
      match response.json with
      | .ok .null => throw (fetchFailed (.object (some "TypeError") none .value))
      | .ok data => pure data
      | .error err => throw (fetchFailed err)
    else throw (notOk response)

/-- Only a numeric code means that the vendor answered. -/
def statusCheckError (message : DeviceMessage) (err : VendorError) : Option ParsedIncomingEvent :=
  match err.code with
  | some (.number _) => some (statusCheckFailed message err)
  | _ => none

def fetchStatus (readResult : ReadResult) (message : DeviceMessage) (network : Network) :
    Except VendorError (Option ParsedIncomingEvent) :=
  match taskTypeOf message.commandType with
  | none => pure none
  | some _ =>
    match sendRequest (network 0) with
    | .error err => pure (statusCheckError message err)
    | .ok res => readResult message res

/-- An error of the transport bears no number. -/
theorem fetchFailed_code (err : Raised) (n : Int) : (fetchFailed err).code ≠ some (.number n) := by
  unfold fetchFailed
  split
  next => exact nofun
  next =>
    unfold calinApiV1Error
    cases getNetworkErrorCode err <;> exact nofun

theorem fetchStatus_unreachable (readResult : ReadResult) (message : DeviceMessage)
    {network : Network} (h : Unreachable network) :
    fetchStatus readResult message network = .ok none := by
  obtain ⟨err, herr⟩ := h 0
  unfold fetchStatus
  cases taskTypeOf message.commandType with
  | none => rfl
  | some taskType =>
    rw [herr]
    have hsilent : statusCheckError message (fetchFailed err) = none := by
      unfold statusCheckError
      split
      next n hn => exact absurd hn (fetchFailed_code err n)
      next => rfl
    exact congrArg Except.ok hsilent

end CalinApiV1

namespace CalinApiV2

structure CachedToken where
  token : List Char
  expMs : ℚ

/-- The cached token, and how many calls the poll has made. -/
structure Session where
  cachedToken : Option CachedToken
  fetches : Nat := 0

def FETCH_RETRIES : Nat := 3

def TOKEN_EXPIRY_SKEW_MS : ℚ := 1000

def calinApiV2Error (message : String) : VendorError where
  message := message
  isOwn := true

variable (readJwtExpMs : List Char → Option ℚ) (network : Network)

/-- `data?.result?.token`, if it is a text that is not empty. -/
def freshToken (json : Except Raised JsValue) : Option (List Char) :=
  match json with
  | .ok (.obj data) =>
    match member data "result" with
    | some (.obj result) =>
      match member result "token" with
      | some (.str token) => if token = [] then none else some token
      | _ => none
    | _ => none
  | _ => none

/-- The token that an answer to the login leaves in the cache. -/
def loginToken (response : HttpResponse) : Option CachedToken :=
  (freshToken response.json).bind fun token =>
    (readJwtExpMs token).map fun expMs => ⟨token, expMs⟩

def fetchTokenWithin (tries : Nat) (s : Session) : Session :=
  match tries with
  | 0 => s
  | tries + 1 =>
    match network s.fetches with
    | .answered response => ⟨loginToken readJwtExpMs response, s.fetches + 1⟩
    | .rejected _ => fetchTokenWithin tries ⟨s.cachedToken, s.fetches + 1⟩

def fetchToken (s : Session) : Session :=
  fetchTokenWithin readJwtExpMs network FETCH_RETRIES s

def needsRefresh (now : ℚ) (s : Session) : Bool :=
  s.cachedToken.all fun cached => cached.expMs - now < TOKEN_EXPIRY_SKEW_MS

/-- The session after the token was refreshed, if that was due. -/
def ensureToken (now : ℚ) (s : Session) : Session :=
  if needsRefresh now s then fetchToken readJwtExpMs network s else s

inductive Posted
  | data (data : JsValue)
  | unauthorized
  | down

def postAuthorized (fetched : Fetched) : Posted :=
  match fetched with
  | .rejected _ => .down
  | .answered response =>
    if response.status = 401 then .unauthorized
    else if response.ok then
      match response.json with
      | .ok .null | .error _ => .down
      | .ok data => .data data
    else .down

/-- A wave of authenticated posts, until one is answered. -/
def postWithin (tries : Nat) (s : Session) : Posted × Session :=
  match tries with
  | 0 => (.down, s)
  | tries + 1 =>
    match postAuthorized (network s.fetches) with
    | .down => postWithin tries { s with fetches := s.fetches + 1 }
    | posted => (posted, { s with fetches := s.fetches + 1 })

/-- The wave after a new login. -/
def postAfresh (s : Session) : Except VendorError JsValue :=
  let s := fetchToken readJwtExpMs network { s with cachedToken := none }
  if s.cachedToken.isSome then
    match (postWithin network FETCH_RETRIES s).1 with
    | .data data => pure data
    | .unauthorized => throw (calinApiV2Error "[CALIN API-V2] Unauthorized after token refresh")
    | .down => throw (calinApiV2Error "CALIN API-V2 is down")
  else throw (calinApiV2Error "[CALIN API-V2] Can't log in, API may be down")

def sendRequest (now : ℚ) (s : Session) : Except VendorError JsValue :=
  let s := ensureToken readJwtExpMs network now s
  if s.cachedToken.isSome then
    match postWithin network FETCH_RETRIES s with
    | (.data data, _) => pure data
    | (.unauthorized, s) => postAfresh readJwtExpMs network s
    | (.down, _) => throw (calinApiV2Error "CALIN API-V2 is down")
  else throw (calinApiV2Error "CALIN API-V2 failed to get a token")

def fetchStatus (readResult : ReadResult) (now : ℚ) (s : Session) (message : DeviceMessage) :
    Except VendorError (Option ParsedIncomingEvent) :=
  match taskTypeOf message.commandType with
  | none => pure none
  | some _ =>
    match sendRequest readJwtExpMs network now s with
    | .error err => pure (some (statusCheckFailed message err))
    | .ok res => readResult message res

variable {readJwtExpMs network}

theorem postWithin_unreachable (h : Unreachable network) (tries : Nat) (s : Session) :
    (postWithin network tries s).1 = .down := by
  induction tries generalizing s with
  | zero => rfl
  | succ tries ih =>
    obtain ⟨err, herr⟩ := h s.fetches
    rw [postWithin, herr]
    exact ih _

/-- Without an answer every request is an error. -/
theorem sendRequest_unreachable (h : Unreachable network) (now : ℚ) (s : Session) :
    ∃ err, sendRequest readJwtExpMs network now s = .error err := by
  unfold sendRequest
  dsimp only
  split
  next =>
    have hdown := postWithin_unreachable h FETCH_RETRIES (ensureToken readJwtExpMs network now s)
    split
    next data s' hpost =>
      rw [hpost] at hdown
      cases hdown
    next s' hpost =>
      rw [hpost] at hdown
      cases hdown
    next => exact ⟨_, rfl⟩
  next => exact ⟨_, rfl⟩

theorem fetchStatus_unreachable (readResult : ReadResult) (message : DeviceMessage)
    (h : Unreachable network) (now : ℚ) (s : Session)
    (htask : (taskTypeOf message.commandType).isSome) :
    ∃ err, fetchStatus readJwtExpMs network readResult now s message =
      .ok (some (statusCheckFailed message err)) := by
  obtain ⟨taskType, ht⟩ := Option.isSome_iff_exists.mp htask
  obtain ⟨err, herr⟩ : ∃ err, sendRequest readJwtExpMs network now s = .error err :=
    sendRequest_unreachable h now s
  refine ⟨err, ?_⟩
  unfold fetchStatus
  rw [ht, herr]
  rfl

end CalinApiV2

end DeviceMessaging
