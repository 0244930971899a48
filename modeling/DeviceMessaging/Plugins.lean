import DeviceMessaging.QueueKeys

namespace DeviceMessaging

inductive DeliveryPattern
  | PUSH | PULL
  deriving DecidableEq

def DeliveryPattern.text (pattern : DeliveryPattern) : String :=
  match pattern with
  | PUSH => "PUSH"
  | PULL => "PULL"

inductive Admission
  | spacing (minIntervalMs : Nat)
  | concurrency (maxInFlight : Nat)
  deriving DecidableEq

/-- `PluginTuning`; the override schema takes positive integers only. -/
structure PluginTuning where
  nsInFlightTimeoutMs : Nat := 20000
  relayNodeInFlightTimeoutMs : Nat := 900000
  deviceInFlightTimeoutMs : Nat := 12000
  initialPollDelayMs : Nat := 10000
  ns_pos : 0 < nsInFlightTimeoutMs := by decide
  relayNode_pos : 0 < relayNodeInFlightTimeoutMs := by decide
  device_pos : 0 < deviceInFlightTimeoutMs := by decide
  poll_pos : 0 < initialPollDelayMs := by decide

/-- `DeliveryConfig`, within the bounds of its schema. -/
structure DeliveryConfig where
  maxRetries : Nat := 11
  retryBaseDelayMs : Nat := 2000
  retryBackoffMultiplier : ℚ := 2
  retryMaxDelayMs : Nat := 3600000
  base_pos : 0 < retryBaseDelayMs := by decide
  multiplier_ge : 1 ≤ retryBackoffMultiplier := by decide
  max_pos : 0 < retryMaxDelayMs := by decide

/-- An error a vendor call was rejected with, in the fields plugins read;
`isOwn` when it is of the plugin's own error class. -/
structure VendorError where
  message : String := ""
  code : Option ErrorCode := none
  details : Option String := none
  skipRetry : Bool := false
  isOwn : Bool := false
  deriving DecidableEq

/-- `PushPlugin | PullPlugin`. `admissionNode` gives the kind and id segments of
its ready queues, `hasGetRemoteStatus` whether a PUSH plugin defines
`outgoing.getRemoteStatus`; what its calls answer is not part of it. -/
structure DeliveryPlugin where
  id : PluginId
  deliveryPattern : DeliveryPattern
  supportedCommandTypes : List CommandType
  admission : Admission
  tuning : PluginTuning
  admissionNode : Option ParsedInt → Device → String × String
  relayNodeNoun : Option String := none
  validateEnqueue : CreateDeviceMessage → Option String := fun _ => none
  parseError : VendorError → FailureContext
  hasGetRemoteStatus : Bool := false
  id_ne : id ≠ "" := by decide

/-- `initialQueueKey`, which plugins build with `buildInitialQueueKey`. -/
def DeliveryPlugin.initialQueueKey (plugin : DeliveryPlugin) (networkId : Option ParsedInt)
    (device : Device) : QueueKey :=
  let (kind, id) := plugin.admissionNode networkId device
  buildInitialQueueKey plugin.id kind id

inductive DeviceMessagingPlugin
  | delivery (plugin : DeliveryPlugin)
  | tokenOnly (id : PluginId)

def DeviceMessagingPlugin.id (plugin : DeviceMessagingPlugin) : PluginId :=
  match plugin with
  | .delivery p => p.id
  | .tokenOnly id => id

/-- The configured plugins; `createPluginRegistry` refuses a repeated id. -/
structure PluginRegistry where
  plugins : List DeviceMessagingPlugin
  nodup : (plugins.map DeviceMessagingPlugin.id).Nodup

/-- The members that the registry's object has from `Object.prototype`. -/
def inheritedNames : List String :=
  ["constructor", "__defineGetter__", "__defineSetter__", "hasOwnProperty", "__lookupGetter__",
    "__lookupSetter__", "isPrototypeOf", "propertyIsEnumerable", "toString", "valueOf",
    "__proto__", "toLocaleString"]

/-- What a name of the registry's object stands for. -/
inductive Resolved
  | plugin (plugin : DeviceMessagingPlugin)
  | inherited

namespace PluginRegistry

variable (registry : PluginRegistry)

/-- The plugin configured under that id. -/
def own (id : PluginId) : Option DeviceMessagingPlugin :=
  registry.plugins.find? fun plugin => plugin.id = id

/-- `plugins[id]`. -/
def get (id : PluginId) : Option Resolved :=
  match registry.own id with
  | some plugin => some (.plugin plugin)
  | none => if id ∈ inheritedNames then some .inherited else none

/-- The delivery plugin of that id: registered, and not token-only. -/
def delivery (id : PluginId) : Option DeliveryPlugin :=
  match registry.own id with
  | some (.delivery plugin) => some plugin
  | _ => none

/-- `getByDeliveryPattern`. -/
def getByDeliveryPattern (pattern : DeliveryPattern) : List DeliveryPlugin :=
  registry.plugins.filterMap fun
    | .delivery plugin => if plugin.deliveryPattern = pattern then some plugin else none
    | .tokenOnly _ => none

variable {registry}

theorem delivery_id {id : PluginId} {plugin : DeliveryPlugin}
    (h : registry.delivery id = some plugin) : plugin.id = id := by
  unfold delivery own at h
  split at h
  next p hp =>
    cases Option.some.inj h
    have hid := List.find?_some hp
    exact of_decide_eq_true hid
  next => cases h

theorem own_of_get {id : PluginId} {plugin : DeviceMessagingPlugin}
    (h : registry.get id = some (.plugin plugin)) : registry.own id = some plugin := by
  unfold get at h
  split at h
  next p hp =>
    cases h
    exact hp
  next =>
    split at h
    · cases h
    · cases h

theorem delivery_of_get {id : PluginId} {plugin : DeliveryPlugin}
    (h : registry.get id = some (.plugin (.delivery plugin))) :
    registry.delivery id = some plugin := by
  unfold delivery
  rw [own_of_get h]

end PluginRegistry

/-- What a running service is built from. `decodeTime` is the ULID package's
reader of the time in an id, `none` where it throws. -/
structure Service where
  registry : PluginRegistry
  delivery : DeliveryConfig
  webhook : Bool
  decodeTime : MessageId → Option Nat

end DeviceMessaging
