import DeviceMessaging.Moves

namespace DeviceMessaging

variable (svc : Service)

inductive StageOutcome
  | rescheduled | movedOn | removed | orphaned
  deriving DecidableEq

/-- `Partial<DeviceMessage>`, in the fields a webhook event is made of. -/
structure PartialMessage where
  id : Option MessageId := none
  pluginId : Option PluginId := none
  correlationId : Option String := none
  commandType : Option CommandType := none
  deliveryStatus : Option DeliveryStatus := none
  phase : Option Phase := none
  device : Option Device := none
  response : Option MessageResponse := none
  failureHistory : Option (List FailureReason) := none
  unsolicited : Option Bool := none
  deriving DecidableEq

def DeviceMessage.toPartial (message : DeviceMessage) : PartialMessage where
  id := some message.id
  pluginId := message.pluginId
  correlationId := message.correlationId
  commandType := message.commandType
  deliveryStatus := message.deliveryStatus
  phase := message.phase
  device := some message.device
  failureHistory := some message.failureHistory

/-- Trim a partial message into an event, which must have a plugin id, a status
and a device. -/
def buildWebhookEvent (message : PartialMessage) (occurredAt : Nat) (eventId : String) :
    Except String WebhookEvent :=
  match truthy message.pluginId, message.deliveryStatus, message.device with
  | none, _, _ => .error "missing pluginId"
  | _, none, _ => .error "missing deliveryStatus"
  | _, _, none => .error "missing device"
  | some pluginId, some deliveryStatus, some device => .ok {
      eventId := eventId
      occurredAt := occurredAt
      pluginId := pluginId
      message := {
        deliveryStatus := deliveryStatus
        device := device
        id := message.id
        correlationId := message.correlationId
        commandType := message.commandType
        phase := message.phase
        response := message.response
        failureHistory := message.failureHistory
        unsolicited := message.unsolicited } }

/-- Persist the event, or drop it when required fields are missing. -/
def storeAndEmit (message : PartialMessage) : Engine Unit := do
  let occurredAt ← dateNow
  let eventId ← ulid
  match buildWebhookEvent message occurredAt eventId with
  | .error _ => return ()
  | .ok event =>
    let now ← dateNow
    redis (.webhookEnqueue ⟨event, 0⟩ now)

def emitDeliveryEvent (message : PartialMessage) : Engine Unit :=
  if svc.webhook then storeAndEmit message else pure ()

def readHash (id : MessageId) (raw : Option MessageHash) : Engine (Option DeviceMessage) :=
  readPicked (raw.map fun h => (id, h))

def getMessageById (id : MessageId) : Engine (Option DeviceMessage) := do
  let raw ← redis (.hgetall id)
  readHash id raw

def isFinalFailure (failureContext : FailureContext) (retryCount : ParsedInt) : Bool :=
  failureContext.skipRetry || retryCount.any fun n => (svc.delivery.maxRetries : Int) ≤ n

def failureEntry (failureContext : FailureContext) (status : Option DeliveryStatus)
    (timestamp : Nat) (isFinal : Bool) : FailureReason where
  reason := failureContext.reason
  errorCode := failureContext.errorCode
  details := truthy failureContext.details
  status := status
  timestamp := timestamp
  isFinal := isFinal

/-- Schedule a retry of a failed attempt, or fail the message permanently. -/
def retryOrFail (messageId : MessageId) (currentQueueKey : QueueKey)
    (failureContext : FailureContext) (plugin : DeliveryPlugin) : Engine StageOutcome := do
  let message ← getMessageById messageId
  match message with
  | none => return .orphaned
  | some message =>
    let isFinal := isFinalFailure svc failureContext message.retryCount
    let timestamp ← dateNow
    let history := failureEntry failureContext message.deliveryStatus timestamp isFinal ::
      message.failureHistory
    if isFinal then
      emitDeliveryEvent svc { message.toPartial with
        failureHistory := some history
        deliveryStatus := some .DELIVERY_FAILED }
      purge message plugin
      return .removed
    else
      let entered ← enterRetry svc messageId currentQueueKey message.retryCount history plugin
      return if entered then .movedOn else .orphaned

end DeviceMessaging
