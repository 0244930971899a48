import DeviceMessaging.BaseService

namespace DeviceMessaging

variable (svc : Service)

def getMessageIdFromDeliveryQueueId (deliveryQueueId : String) : Engine (Option MessageId) := do
  let key ← redis (.getExternalIndex deliveryQueueId)
  return messageIdFromKey key

/-- What the adopter is told of an uplink that answers no command. -/
def unsolicitedMessage (parsedEvent : ParsedIncomingEvent) (plugin : DeliveryPlugin) :
    PartialMessage where
  pluginId := some plugin.id
  commandType := parsedEvent.commandType
  deliveryStatus := some parsedEvent.deliveryStatus
  device := some parsedEvent.device
  response := parsedEvent.response
  unsolicited := some true

/-- A negative response: retry or fail from the stage the hash is in. -/
def processFailure (messageId : MessageId) (parsedEvent : ParsedIncomingEvent)
    (plugin : DeliveryPlugin) : Engine StageOutcome := do
  let context := parsedEvent.failureContext.getD
    { reason := "Unable to deliver message after negative remote response" }
  let storedMessage ← getMessageById messageId
  match storedMessage with
  | none => return .orphaned
  | some storedMessage =>
    match storedMessage.deliveryStatus with
    | none => throw "unhandled delivery status: undefined"
    | some status =>
      match stageForStatus status plugin.deliveryPattern with
      | none => return .orphaned
      | some stage => retryOrFail svc messageId (stageKeyFor stage plugin.id) context plugin

/-- A response to a delivered command may still report a failed execution. -/
def successHistory (parsedEvent : ParsedIncomingEvent) (storedMessage : DeviceMessage)
    (timestamp : Nat) : List FailureReason :=
  match parsedEvent.failureContext with
  | none => storedMessage.failureHistory
  | some context =>
    failureEntry context (some parsedEvent.deliveryStatus) timestamp true ::
      storedMessage.failureHistory

def processSuccess (messageId : MessageId) (parsedEvent : ParsedIncomingEvent)
    (plugin : DeliveryPlugin) : Engine StageOutcome := do
  let storedMessage ← getMessageById messageId
  match storedMessage with
  | none => return .orphaned
  | some storedMessage =>
    let timestamp ← dateNow
    emitDeliveryEvent svc { storedMessage.toPartial with
      deliveryStatus := some parsedEvent.deliveryStatus
      response := parsedEvent.response
      device := some parsedEvent.device
      failureHistory := some (successHistory parsedEvent storedMessage timestamp) }
    purge storedMessage plugin
    return .removed

/-- The event applied to the message its external id is indexed to. -/
def processIndexed (messageId : MessageId) (parsedEvent : ParsedIncomingEvent)
    (plugin : DeliveryPlugin) : Engine StageOutcome :=
  if parsedEvent.deliveryStatus = .SENT_TO_DEVICE ∧ plugin.deliveryPattern = .PUSH then do
    let _ ← advance svc messageId plugin .relayNode none (some 0)
    return .movedOn
  else if parsedEvent.deliveryStatus = .DELIVERY_FAILED then
    processFailure svc messageId parsedEvent plugin
  else if parsedEvent.deliveryStatus ≠ .DELIVERY_SUCCESSFUL then
    pure .rescheduled
  else processSuccess svc messageId parsedEvent plugin

/-- Apply one parsed event, pushed or polled. -/
def processEvent (parsedEvent : ParsedIncomingEvent) (plugin : DeliveryPlugin) :
    Engine StageOutcome :=
  if parsedEvent.unsolicited then do
    emitDeliveryEvent svc (unsolicitedMessage parsedEvent plugin)
    return .rescheduled
  else
    match truthy parsedEvent.deliveryQueueId with
    | none => pure .rescheduled
    | some deliveryQueueId => do
      let messageId ← getMessageIdFromDeliveryQueueId deliveryQueueId
      match messageId with
      | none => return .orphaned
      | some messageId => processIndexed svc messageId parsedEvent plugin

end DeviceMessaging
