import DeviceMessaging.Plugins
import DeviceMessaging.Ulid

namespace DeviceMessaging

def DEFAULT_PLUGIN_TUNING : PluginTuning := {}

theorem calinChirpstack_named : "calin-chirpstack" ≠ "" := by decide

theorem calinApiV1_named : "calin-api-v1" ≠ "" := by decide

theorem calinApiV2_named : "calin-api-v2" ≠ "" := by decide

def networkPart (networkId : Option ParsedInt) : String :=
  match networkId with
  | none => "unassigned"
  | some none => "NaN"
  | some (some n) => toString n

def relayNodePart (device : Device) : String :=
  match device.relayNode.bind RelayNodeInfo.id with
  | none => "unassigned"
  | some n => toString n

def isInfixOf (part text : String) : Bool :=
  text.toList.tails.any fun t => part.toList.isPrefixOf t

def calinChirpstackParseError (err : VendorError) : FailureContext :=
  if err.isOwn then { reason := err.message, skipRetry := err.skipRetry }
  else if err.details.any (isInfixOf "device_queue_item_dev_eui_fkey") then {
    reason := "Device not registered in Network Server (ChirpStack)"
    errorCode := err.code
    details := err.details
    skipRetry := true }
  else {
    reason := "Failed to enqueue message at ChirpStack"
    errorCode := err.code
    details := err.details }

def calinChirpstack (tuning : PluginTuning) : DeliveryPlugin where
  id := "calin-chirpstack"
  deliveryPattern := .PUSH
  supportedCommandTypes := [.readCredit, .readVoltage, .readPower, .readCurrent, .readPowerLimit,
    .readDate, .readTime, .turnOn, .turnOff, .setDate, .setTime, .topUpKwh, .setPowerLimit,
    .clearTamper, .clearCredit, .deliverPreexistingToken]
  admission := .spacing 2000
  tuning := tuning
  admissionNode networkId _ := ("network", networkPart networkId)
  relayNodeNoun := some "gateway"
  parseError := calinChirpstackParseError
  hasGetRemoteStatus := true
  id_ne := calinChirpstack_named

/-- `ResultCode` 99, such as a rejected token, is permanent. -/
def calinApiV1ParseError (err : VendorError) : FailureContext :=
  if err.isOwn then {
    reason := err.message
    errorCode := err.code
    skipRetry := err.skipRetry || err.code = some (.number 99) }
  else { reason := err.message }

def requireRelayNodeId (create : CreateDeviceMessage) : Option String :=
  match create.device.relayNode.bind RelayNodeInfo.id with
  | none => some "device.relayNode.id is required"
  | some _ => none

def calinApiV1 (tuning : PluginTuning) : DeliveryPlugin where
  id := "calin-api-v1"
  deliveryPattern := .PULL
  supportedCommandTypes := [.readCredit, .readVoltage, .readPower, .readCurrent, .readPowerLimit,
    .readVersion, .readDate, .turnOn, .turnOff, .setDate, .topUpKwh, .setPowerLimit, .clearTamper,
    .clearCredit, .deliverPreexistingToken]
  admission := .concurrency 5
  tuning := tuning
  admissionNode _ device := ("dcu", relayNodePart device)
  validateEnqueue := requireRelayNodeId
  parseError := calinApiV1ParseError
  id_ne := calinApiV1_named

def calinApiV2ParseError (err : VendorError) : FailureContext :=
  if err.isOwn then {
    reason := err.message
    errorCode := err.code
    skipRetry := err.skipRetry }
  else { reason := err.message }

def calinApiV2 (tuning : PluginTuning) : DeliveryPlugin where
  id := "calin-api-v2"
  deliveryPattern := .PULL
  supportedCommandTypes := [.readCredit, .readVoltage, .readPower, .readCurrent, .readPowerLimit,
    .readVersion, .readDate, .turnOn, .turnOff, .setDate, .topUpKwh, .setPowerLimit, .clearTamper,
    .clearCredit, .deliverPreexistingToken]
  admission := .concurrency 5
  tuning := tuning
  admissionNode _ device := ("dcu", relayNodePart device)
  validateEnqueue := requireRelayNodeId
  parseError := calinApiV2ParseError
  id_ne := calinApiV2_named

/-- The vendor plugins of the catalog, all enabled with their default tuning. -/
def vendorRegistry : PluginRegistry where
  plugins := [.delivery (calinChirpstack {}), .delivery (calinApiV1 {}),
    .delivery (calinApiV2 {}), .tokenOnly "nxt-sts"]
  nodup := by decide

/-- A service with that registry and the default delivery knobs. -/
def vendorService : Service where
  registry := vendorRegistry
  delivery := {}
  webhook := true
  decodeTime := decodeUlidTime

end DeviceMessaging
