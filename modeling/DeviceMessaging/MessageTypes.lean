import Mathlib.Algebra.Order.Ring.Rat

namespace DeviceMessaging

abbrev MessageId := String
abbrev PluginId := String

inductive CommandType
  | readVoltage | readCurrent
  | readPower | readPowerLimit | readCredit | readVersion | readDate | readTime
  | turnOn | turnOff
  | setDate | setTime
  | clearCredit | clearTamper | setPowerLimit | topUpKwh | deliverPreexistingToken
  | readReport | joinNetwork
  deriving DecidableEq

/-- `ENQUEUEABLE_COMMAND_TYPES`: everything but the unsolicited types. -/
def CommandType.isEnqueueable : CommandType → Bool
  | .readReport | .joinNetwork => false
  | _ => true

def CommandType.text (commandType : CommandType) : String :=
  match commandType with
  | readVoltage => "READ_VOLTAGE"
  | readCurrent => "READ_CURRENT"
  | readPower => "READ_POWER"
  | readPowerLimit => "READ_POWER_LIMIT"
  | readCredit => "READ_CREDIT"
  | readVersion => "READ_VERSION"
  | readDate => "READ_DATE"
  | readTime => "READ_TIME"
  | turnOn => "TURN_ON"
  | turnOff => "TURN_OFF"
  | setDate => "SET_DATE"
  | setTime => "SET_TIME"
  | clearCredit => "CLEAR_CREDIT"
  | clearTamper => "CLEAR_TAMPER"
  | setPowerLimit => "SET_POWER_LIMIT"
  | topUpKwh => "TOP_UP_KWH"
  | deliverPreexistingToken => "DELIVER_PREEXISTING_TOKEN"
  | readReport => "READ_REPORT"
  | joinNetwork => "JOIN_NETWORK"

inductive Phase
  | A | B | C
  deriving DecidableEq

/-- `PHASES`. -/
def phases : List Phase :=
  [.A, .B, .C]

inductive DeliveryStatus
  | QUEUED | TO_RETRY | SENT_TO_NS | DELIVERED_TO_NS | SENT_TO_DEVICE
  | DELIVERY_SUCCESSFUL | DELIVERY_FAILED
  deriving DecidableEq

/-- The two statuses after which nothing more is done for a message. -/
def DeliveryStatus.IsTerminal (s : DeliveryStatus) : Prop :=
  s = .DELIVERY_SUCCESSFUL ∨ s = .DELIVERY_FAILED

instance (s : DeliveryStatus) : Decidable s.IsTerminal :=
  inferInstanceAs (Decidable (_ ∨ _))

/-- A decimal number as JavaScript prints it: its sign, its significant digits
and the power of ten they are scaled by. -/
structure JsNumber where
  negative : Bool := false
  significand : Nat
  exponent : Int := 0
  deriving DecidableEq

def JsNumber.value (x : JsNumber) : ℚ :=
  (if x.negative then -1 else 1) * x.significand *
    (if 0 ≤ x.exponent then 10 ^ x.exponent.toNat else 1 / 10 ^ (-x.exponent).toNat)

/-- `parseInt(String(x))`. The text shows its integer part unless it is in
exponent notation, where only the leading digit stands before the point. -/
def JsNumber.parseInt (x : JsNumber) : Int :=
  let digits := (Nat.toDigits 10 x.significand).length
  let point : Int := digits + x.exponent
  let magnitude : Nat :=
    if 0 < point ∧ point ≤ 21 then
      if 0 ≤ x.exponent then x.significand * 10 ^ x.exponent.toNat
      else x.significand / 10 ^ (-x.exponent).toNat
    else if -6 < point ∧ point ≤ 0 then 0
    else x.significand / 10 ^ (digits - 1)
  if x.negative then -magnitude else magnitude

structure RelayNodeInfo where
  id : Option Nat := none
  externalReference : Option String := none
  snr : Option JsNumber := none
  rssi : Option JsNumber := none
  deriving DecidableEq

/-- `DeviceMessageDevice`; its `type` is always `ELECTRICITY_METER`. -/
structure Device where
  externalReference : String
  relayNode : Option RelayNodeInfo := none
  deriving DecidableEq

inductive RequestPayload
  | date (year month day : Nat)
  | time (hour minute : Nat) (second : Option Nat)
  deriving DecidableEq

structure RequestData where
  token : Option String := none
  payload : Option RequestPayload := none
  deriving DecidableEq

inductive ExecutionStatus
  | EXECUTION_SUCCESS | EXECUTION_FAILURE
  deriving DecidableEq

/-- The values of `data` belong to the plugin and stay JSON texts. -/
structure MessageResponse where
  status : ExecutionStatus
  data : Option (List (String × String)) := none
  deriving DecidableEq

inductive ErrorCode
  | number (n : Int)
  | text (s : String)
  deriving DecidableEq

/-- Engine-only input to `retryOrFail`; an absent `skipRetry` is `false`. -/
structure FailureContext where
  reason : String
  errorCode : Option ErrorCode := none
  details : Option String := none
  skipRetry : Bool := false
  deriving DecidableEq

/-- One entry of `failureHistory`; `timestamp` is the clock reading behind the
ISO text. -/
structure FailureReason where
  reason : String
  errorCode : Option ErrorCode
  details : Option String
  status : Option DeliveryStatus
  timestamp : Nat
  isFinal : Bool
  deriving DecidableEq

/-- What `parseInt` makes of a text; `none` is `NaN`. -/
abbrev ParsedInt := Option Int

/-- The body of an enqueue request, as `createDeviceMessageSchema` accepts it. -/
structure CreateDeviceMessage where
  commandType : CommandType
  priority : JsNumber
  pluginId : PluginId
  requestData : Option RequestData := none
  phase : Option Phase := none
  networkId : Option Nat := none
  correlationId : Option String := none
  device : Device
  enqueueable : commandType.isEnqueueable = true := by decide
  pluginId_ne : pluginId ≠ "" := by decide
  correlationId_ne : correlationId ≠ some "" := by decide

/-- A partition of a plugin's work: `{pluginId}:{kind}:{id}`, the identity a
ready queue shares with its rate-limit set. -/
structure AdmissionNode where
  pluginId : PluginId
  kind : String
  id : String
  deriving DecidableEq

/-- A message as loaded from Redis. Fields the source types as present but reads
off the hash unchecked are optional; `networkId` is `null` or a number. -/
structure DeviceMessage where
  id : MessageId
  commandType : Option CommandType
  pluginId : Option PluginId
  priority : ParsedInt
  device : Device
  networkId : Option ParsedInt
  correlationId : Option String
  requestData : Option RequestData
  phase : Option Phase
  deliveryQueueId : String
  deliveryStatus : Option DeliveryStatus
  retryCount : ParsedInt
  failureHistory : List FailureReason
  concurrencyRateLimitKey : Option AdmissionNode
  deriving DecidableEq

structure ParsedIncomingEvent where
  commandType : Option CommandType := none
  deliveryQueueId : Option String := none
  deliveryStatus : DeliveryStatus
  device : Device
  response : Option MessageResponse := none
  unsolicited : Bool := false
  failureContext : Option FailureContext := none
  deriving DecidableEq

end DeviceMessaging
