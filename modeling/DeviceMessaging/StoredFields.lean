import Mathlib.Data.List.AList
import DeviceMessaging.JsNumberText
import DeviceMessaging.MessageHash

namespace DeviceMessaging

open JsonText

abbrev JsValue := Json JsNumber

/-- `JSON.stringify`. -/
def stringify (j : JsValue) : String :=
  String.ofList (print JsNumber.format j)

/-- `JSON.parse`. -/
def parseJson (s : String) : Except String JsValue :=
  match parse JsNumber.format s.toList with
  | some j => .ok j
  | none => .error "SyntaxError"

section Values

def textValue (s : String) : JsValue :=
  .str s.toList

def natValue (n : Nat) : JsValue :=
  .num (JsNumber.ofNat n)

/-- A member of an object, left out when it is `undefined`. -/
def optionalMember (key : String) (j : Option JsValue) : List (List Char × JsValue) :=
  (j.map fun j => (key.toList, j)).toList

def RelayNodeInfo.toValue (r : RelayNodeInfo) : JsValue :=
  .obj (optionalMember "id" (r.id.map natValue) ++
    optionalMember "externalReference" (r.externalReference.map textValue) ++
    optionalMember "snr" (r.snr.map .num) ++
    optionalMember "rssi" (r.rssi.map .num))

def Device.toValue (d : Device) : JsValue :=
  .obj (optionalMember "type" (some (textValue "ELECTRICITY_METER")) ++
    optionalMember "externalReference" (some (textValue d.externalReference)) ++
    optionalMember "relayNode" (d.relayNode.map RelayNodeInfo.toValue))

def RequestPayload.toValue (p : RequestPayload) : JsValue :=
  match p with
  | .date year month day =>
    .obj (optionalMember "year" (some (natValue year)) ++
      optionalMember "month" (some (natValue month)) ++
      optionalMember "day" (some (natValue day)))
  | .time hour minute second =>
    .obj (optionalMember "hour" (some (natValue hour)) ++
      optionalMember "minute" (some (natValue minute)) ++
      optionalMember "second" (second.map natValue))

def RequestData.toValue (r : RequestData) : JsValue :=
  .obj (optionalMember "token" (r.token.map textValue) ++
    optionalMember "payload" (r.payload.map RequestPayload.toValue))

def Phase.text (p : Phase) : String :=
  match p with
  | .A => "A"
  | .B => "B"
  | .C => "C"

end Values

section Schema

def RelayNodeInfo.Accepted (r : RelayNodeInfo) : Prop :=
  (∀ n ∈ r.id, n < 2 ^ 32) ∧ (∀ x ∈ r.snr, x.Canonical) ∧ ∀ x ∈ r.rssi, x.Canonical

def RequestPayload.Accepted (p : RequestPayload) : Prop :=
  match p with
  | .date year month day => year ≤ 9999 ∧ 1 ≤ month ∧ month ≤ 12 ∧ 1 ≤ day ∧ day ≤ 31
  | .time hour minute second => hour ≤ 23 ∧ minute ≤ 59 ∧ ∀ s ∈ second, s ≤ 59

/-- What `createDeviceMessageSchema` checks beyond the types; numbers are in the form
every JavaScript number has. -/
structure CreateDeviceMessage.Accepted (dto : CreateDeviceMessage) : Prop where
  priority : dto.priority.Canonical
  networkId : ∀ n ∈ dto.networkId, n < 2 ^ 32
  externalReference : dto.device.externalReference ≠ ""
  relayNode : ∀ r ∈ dto.device.relayNode, r.Accepted
  payload : ∀ r ∈ dto.requestData, ∀ p ∈ r.payload, p.Accepted

end Schema

/-- The fields of a hash, each once. -/
abbrev HashContent := AList fun _ : String => String

/-- `Record<string, string>`. -/
abbrev FieldRecord := String → Option String

/-- The flat array of `HGETALL`. -/
def HashContent.hgetall (content : HashContent) : List String :=
  content.entries.flatMap fun e => [e.1, e.2]

/-- The field map the client makes of the same reply. -/
def HashContent.record (content : HashContent) : FieldRecord :=
  fun key => content.lookup key

namespace Stored

/-- Assignment to a field of a plain object. A text assigned to `__proto__` is dropped. -/
def assign (record : FieldRecord) (e : String × String) : FieldRecord :=
  if e.1 = "__proto__" then record else Function.update record e.1 (some e.2)

def optionalField (key : String) (text : Option String) : List (Sigma fun _ : String => String) :=
  (text.map fun text => ⟨key, text⟩).toList

/-- The fields of the object, each turned into a text. -/
def serializeCreateDeviceMessage (dto : CreateDeviceMessage) :
    List (Sigma fun _ : String => String) :=
  optionalField "commandType" (some dto.commandType.text) ++
    optionalField "priority" (some (String.ofList dto.priority.text)) ++
    optionalField "pluginId" (some dto.pluginId) ++
    optionalField "device" (some (stringify dto.device.toValue)) ++
    optionalField "networkId"
      (dto.networkId.map fun n => String.ofList (JsNumber.ofNat n).text) ++
    optionalField "correlationId" (truthy dto.correlationId) ++
    optionalField "requestData" (dto.requestData.map fun r => stringify r.toValue) ++
    optionalField "phase" (dto.phase.map Phase.text) ++
    optionalField "deliveryStatus" (some "QUEUED")

/-- A message as `deserializeMessage` reads it: texts and JSON values are only cast. -/
structure StoredMessage where
  id : MessageId
  commandType : Option String
  pluginId : Option String
  priority : ParsedInt
  device : JsValue
  networkId : Option ParsedInt
  correlationId : Option String
  requestData : Option JsValue
  phase : Option String
  deliveryQueueId : String
  deliveryStatus : Option String
  retryCount : ParsedInt
  failureHistory : JsValue
  concurrencyRateLimitKey : Option String

/-- `parseInt(raw.field)`; of `undefined` it is `NaN`. -/
def parseIntField (text : Option String) : ParsedInt :=
  text.bind fun s => JsNumber.parseIntText s.toList

def parseOptional (text : Option String) : Except String (Option JsValue) :=
  match truthy text with
  | none => .ok none
  | some s => (parseJson s).map some

def parseDevice (id : MessageId) (text : Option String) : Except String JsValue :=
  match truthy text with
  | none => .error ("[REDIS] Message without device payload (messageId=" ++ id ++ ")")
  | some s => parseJson s

def deserializeMessage (id : MessageId) (raw : FieldRecord) : Except String StoredMessage := do
  let device ← parseDevice id (raw "device")
  let requestData ← parseOptional (raw "requestData")
  let failureHistory ← parseOptional (raw "failureHistory")
  return {
    id := id
    commandType := raw "commandType"
    pluginId := raw "pluginId"
    priority := parseIntField (raw "priority")
    device := device
    networkId := (raw "networkId").map fun s => parseIntField (some s)
    correlationId := truthy (raw "correlationId")
    requestData := requestData
    phase := truthy (raw "phase")
    deliveryQueueId := (raw "deliveryQueueId").getD ""
    deliveryStatus := raw "deliveryStatus"
    retryCount := parseIntField (some ((raw "retryCount").getD "0"))
    failureHistory := failureHistory.getD (.arr [])
    concurrencyRateLimitKey := truthy (raw "concurrencyRateLimitKey") }

end Stored

end DeviceMessaging
