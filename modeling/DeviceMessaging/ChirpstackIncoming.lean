import Mathlib.Logic.Function.Basic
import DeviceMessaging.CalinDecode
import DeviceMessaging.JsValues

namespace DeviceMessaging

open JsonText

namespace Chirpstack

/-- `device.relayNode`, with the members of the best observation as they are. -/
structure RelayNode where
  externalReference : Option JsValue
  snr : Option JsValue
  rssi : Option JsValue

structure ReportedDevice where
  externalReference : List Char
  relayNode : Option RelayNode := none

inductive ResponseBody
  | networkJoined (networkJoined : Bool)
  | decoded (data : Calin.ResponseData)

structure Response where
  status : ExecutionStatus
  data : ResponseBody

/-- The event as the plugin returns it: `deliveryQueueId` is read off the body unchecked. -/
structure ParsedIncomingEvent where
  deliveryQueueId : Option JsValue := none
  deliveryStatus : DeliveryStatus
  commandType : Option CommandType := none
  response : Option Response := none
  failureContext : Option FailureContext := none
  device : ReportedDevice
  unsolicited : Bool := false

section Connectivity

/-- Negative if `left` comes first. -/
def signalSortFn (left right : JsValue) : Js ℚ := do
  let rightSnr ← property right "snr"
  let leftSnr ← property left "snr"
  if strictEquals rightSnr leftSnr then
    difference (← property right "rssi") (← property left "rssi")
  else difference rightSnr leftSnr

/-- Behind everything that does not come after it. -/
def insertSorted (x : JsValue) (sorted : List JsValue) : Js (List JsValue) :=
  match sorted with
  | [] => pure [x]
  | y :: sorted => do
    let order ← signalSortFn y x
    if 0 < order then return x :: y :: sorted
    else
      let rest ← insertSorted x sorted
      return y :: rest

/-- `sort(signalSortFn)`, which keeps the order of equals. Where the comparison is no order,
the engine may also arrive at another one. -/
def sortBySignal (items : List JsValue) : Js (List JsValue) :=
  items.foldlM (fun sorted x => insertSorted x sorted) []

def selectGatewayWithBestSignal (rxInfoList : List JsValue) : Js RelayNode := do
  let sorted ← sortBySignal rxInfoList
  match sorted with
  | [] => throw .typeError
  | best :: _ =>
    let gatewayId ← property best "gatewayId"
    let snr ← property best "snr"
    let rssi ← property best "rssi"
    return { externalReference := gatewayId, snr := snr, rssi := rssi }

/-- `event.rxInfo?.length ? selectGatewayWithBestSignal(event.rxInfo) : undefined`; a text is
spread into its characters. -/
def relayNodeOf (rxInfo : Option JsValue) : Js (Option RelayNode) :=
  match rxInfo with
  | some (.arr (item :: items)) => (selectGatewayWithBestSignal (item :: items)).map some
  | some (.str (c :: text)) =>
    (selectGatewayWithBestSignal ((c :: text).map fun c => .str [c])).map some
  | some (.obj members) =>
    if isTruthy (member members "length") then throw .typeError else pure none
  | _ => pure none

end Connectivity

section Correlator

/-- A key of the correlator's map, as the map tells them apart: objects by identity, which is
that of the body they came in. -/
inductive CorrelationKey
  | undefined
  | null
  | bool (b : Bool)
  | number (x : JsNumber)
  | string (s : List Char)
  | reference (body : Nat)
  deriving DecidableEq

/-- A body of the ingress: its members, and its number among the bodies. -/
structure Body where
  number : Nat
  members : Members

def Body.get (event : Body) (name : String) : Option JsValue :=
  member event.members name

def Body.deduplicationId (event : Body) : CorrelationKey :=
  match event.get "deduplicationId" with
  | none => .undefined
  | some .null => .null
  | some (.bool b) => .bool b
  | some (.num x) => .number x
  | some (.str s) => .string s
  | some (.arr _) | some (.obj _) => .reference event.number

/-- The device comes with the decoded uplink. -/
structure CorrelationEntry where
  queueItemId : Option JsValue := none
  decoded : Option Calin.DecodedLorawanCalinEvent := none
  device : Option ReportedDevice := none
  timestamp : Nat
  device_decoded : device.isSome = decoded.isSome := by rfl

/-- `pendingCorrelations`. -/
abbrev Correlations := CorrelationKey → Option CorrelationEntry

def CORRELATION_TTL_MS : Nat := 10000

/-- What a handler returns, and the correlations it leaves. -/
abbrev Handled := Option ParsedIncomingEvent × Correlations

def combinedEvent (queueItemId : Option JsValue) (decoded : Calin.DecodedLorawanCalinEvent)
    (device : ReportedDevice) : ParsedIncomingEvent where
  deliveryQueueId := queueItemId
  deliveryStatus := .DELIVERY_SUCCESSFUL
  response := some { status := decoded.status, data := .decoded decoded.data }
  failureContext := decoded.failureContext
  device := device

def onAckEvent (event : Body) (now : Nat) (pendingCorrelations : Correlations) : Handled :=
  match pendingCorrelations event.deduplicationId with
  | some { decoded := some decoded, device := some device, .. } =>
    (some (combinedEvent (event.get "queueItemId") decoded device),
      Function.update pendingCorrelations event.deduplicationId none)
  | _ =>
    (none, Function.update pendingCorrelations event.deduplicationId
      (some { queueItemId := event.get "queueItemId", timestamp := now }))

def onUpEvent (event : Body) (decoded : Calin.DecodedLorawanCalinEvent) (device : ReportedDevice)
    (now : Nat) (pendingCorrelations : Correlations) : Handled :=
  let queueItemId := (pendingCorrelations event.deduplicationId).bind fun e => e.queueItemId
  if isTruthy queueItemId then
    (some (combinedEvent queueItemId decoded device),
      Function.update pendingCorrelations event.deduplicationId none)
  else
    (none, Function.update pendingCorrelations event.deduplicationId
      (some { decoded := some decoded, device := some device, timestamp := now }))

def runGarbageCollection (now : Nat) (pendingCorrelations : Correlations) : Correlations :=
  fun key => (pendingCorrelations key).filter fun e => now - e.timestamp ≤ CORRELATION_TTL_MS

end Correlator

section Handlers

def DEV_EUI_LENGTH : Nat := 16

def METER_REFERENCE_OFFSET : Nat := 5

def createDevice (externalReference : List Char) (relayNode : Option RelayNode := none) :
    ReportedDevice where
  externalReference := externalReference
  relayNode := relayNode

def handleDown (event : Body) (meterExternalReference : List Char) : ParsedIncomingEvent where
  deliveryQueueId := event.get "queueItemId"
  deliveryStatus := .SENT_TO_DEVICE
  device := createDevice meterExternalReference

def handleJoin (meterExternalReference : List Char) : ParsedIncomingEvent where
  deliveryStatus := .DELIVERY_SUCCESSFUL
  commandType := some .joinNetwork
  response := some { status := .EXECUTION_SUCCESS, data := .networkJoined true }
  device := createDevice meterExternalReference
  unsolicited := true

/-- `event.acknowledged === true`. -/
def Body.acknowledged (event : Body) : Bool :=
  strictEquals (event.get "acknowledged") (some (.bool true))

def handleAck (event : Body) (meterExternalReference : List Char) (now : Nat)
    (pendingCorrelations : Correlations) : Handled :=
  if isTruthy (event.get "queueItemId") then
    if event.acknowledged then onAckEvent event now pendingCorrelations
    else
      (some {
        deliveryQueueId := event.get "queueItemId"
        deliveryStatus := .DELIVERY_FAILED
        device := createDevice meterExternalReference
        failureContext := some {
          reason := "Downlink not acknowledged by device " ++
            "(may be offline, out of range, or missed RX window)" } }, pendingCorrelations)
  else (none, pendingCorrelations)

variable (bufferFrom : JsValue → Js (List Calin.Byte))

/-- `decodeResponseData(event.data)`; `bufferFrom` is `Buffer.from(_, 'base64')`. -/
def Body.decoded (event : Body) : Js (Option Calin.DecodedLorawanCalinEvent) :=
  match event.get "data" with
  | none => pure none
  | some data =>
    if isTruthy (some data) then (bufferFrom data).map Calin.decodeResponseData else pure none

def handleUp (event : Body) (meterExternalReference : List Char) (now : Nat)
    (pendingCorrelations : Correlations) : Js Handled := do
  let decoded ← event.decoded bufferFrom
  match decoded with
  | none => return (none, pendingCorrelations)
  | some decoded =>
    let relayNode ← relayNodeOf (event.get "rxInfo")
    let device := createDevice meterExternalReference relayNode
    if decoded.unsolicitedEventType = some .readReport then
      return (some {
        deliveryStatus := .DELIVERY_SUCCESSFUL
        commandType := decoded.unsolicitedEventType
        response := some { status := decoded.status, data := .decoded decoded.data }
        device := device
        unsolicited := true }, pendingCorrelations)
    else return onUpEvent event decoded device now pendingCorrelations

/-- `deviceInfo.devEui`, if the body is addressed by one. -/
def Body.devEui (event : Body) : Option (List Char) :=
  match event.get "deviceInfo" with
  | some (.obj deviceInfo) =>
    match member deviceInfo "devEui" with
    | some (.str devEui) => some devEui
    | _ => none
  | _ => none

/-- `query` is `meta.query.event`. -/
def dispatch (event : Body) (query : Option String) (meterExternalReference : List Char)
    (now : Nat) (pendingCorrelations : Correlations) : Js Handled :=
  match query with
  | some "txack" => pure (some (handleDown event meterExternalReference), pendingCorrelations)
  | some "ack" => pure (handleAck event meterExternalReference now pendingCorrelations)
  | some "join" => pure (some (handleJoin meterExternalReference), pendingCorrelations)
  | some "up" => handleUp bufferFrom event meterExternalReference now pendingCorrelations
  | _ => pure (none, pendingCorrelations)

def handleRecord (event : Body) (query : Option String) (now : Nat)
    (pendingCorrelations : Correlations) : Js Handled :=
  match event.devEui with
  | none => pure (none, pendingCorrelations)
  | some devEui =>
    if textLength devEui = DEV_EUI_LENGTH then
      let meterExternalReference := substring devEui METER_REFERENCE_OFFSET
      if meterExternalReference = [] then pure (none, pendingCorrelations)
      else dispatch bufferFrom event query meterExternalReference now pendingCorrelations
    else pure (none, pendingCorrelations)

def handle (number : Nat) (event : JsValue) (query : Option String) (now : Nat)
    (pendingCorrelations : Correlations) : Js Handled :=
  match event with
  | .obj members => handleRecord bufferFrom ⟨number, members⟩ query now pendingCorrelations
  | _ => pure (none, pendingCorrelations)

end Handlers

end Chirpstack

end DeviceMessaging
