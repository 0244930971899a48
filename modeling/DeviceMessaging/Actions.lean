import DeviceMessaging.Incoming

namespace DeviceMessaging

open Effect

variable (svc : Service)

/-- Await a vendor call; a rejected one throws. -/
def awaitVendor {α : Type} (answer : Except VendorError α) : Engine α :=
  match answer with
  | .ok a => pure a
  | .error e => throw e.message

/-- `TIMEOUT_REASONS`. -/
def timeoutReason (name : StageName) (relayNodeNoun : Option String) : String :=
  match name with
  | .relayNode =>
    "Timed out waiting for " ++ relayNodeNoun.getD "relay node" ++
      " to transmit message to device"
  | .device => "Timed out waiting for device response after transmission"
  | .awaitingTask => "Timed out waiting for remote task completion"
  | _ => "Timed out waiting for Network Server to accept message"

structure StageActionContext where
  queueKey : QueueKey
  message : DeviceMessage
  plugin : DeliveryPlugin
  messageAgeMs : Int

/-- The message a PULL plugin's task outlived. -/
def expiredMessage (message : DeviceMessage) (timestamp : Nat) : DeviceMessage :=
  { message with
    deliveryStatus := some .DELIVERY_FAILED
    failureHistory :=
      failureEntry { reason := timeoutReason .awaitingTask none } (some .DELIVERED_TO_NS)
        timestamp true :: message.failureHistory }

def failPermanently (message : DeviceMessage) (plugin : DeliveryPlugin) : Engine Unit := do
  let timestamp ← dateNow
  emitDeliveryEvent svc (expiredMessage message timestamp).toPartial
  purge (expiredMessage message timestamp) plugin

/-- The stage deadline fired: the attempt failed for that reason. -/
def timeOut (name : StageName) (queueKey : QueueKey) (c : StageActionContext) :
    Engine StageOutcome :=
  retryOrFail svc c.message.id queueKey
    { reason := timeoutReason name c.plugin.relayNodeNoun } c.plugin

def nsAction (c : StageActionContext) : Engine StageOutcome := do
  let held ← Prog.command (Cmd.hasInFlightSend c.message.id)
  if held then return .rescheduled
  else timeOut svc .ns .ns c

/-- Whether the vendor says the item is still queued; an error says nothing. -/
def remoteStillQueued (c : StageActionContext) : Engine Bool := do
  let answer ← Prog.command (Cmd.getRemoteStatus c.plugin.id c.message)
  match answer with
  | .ok deliveryStatus => return deliveryStatus ≠ "DELIVERY_FAILED"
  | .error _ => return false

def relayNodeAction (c : StageActionContext) : Engine StageOutcome :=
  if c.plugin.deliveryPattern = .PUSH ∧ c.plugin.hasGetRemoteStatus = true then do
    let queued ← remoteStillQueued c
    if queued then return .rescheduled
    else timeOut svc .relayNode c.queueKey c
  else timeOut svc .relayNode c.queueKey c

def deviceAction (c : StageActionContext) : Engine StageOutcome :=
  timeOut svc .device c.queueKey c

/-- Ask the vendor how the task is doing, and apply what it says. -/
def pollTask (c : StageActionContext) : Engine StageOutcome := do
  let answer ← Prog.command (Cmd.fetchStatus c.plugin.id c.message)
  let parsedEvent ← awaitVendor answer
  match parsedEvent with
  | none => return .rescheduled
  | some parsedEvent => processEvent svc parsedEvent c.plugin

def awaitingTaskAction (c : StageActionContext) : Engine StageOutcome :=
  if pullMaxMessageAgeMs ≤ c.messageAgeMs then do
    failPermanently svc c.message c.plugin
    return .removed
  else if c.plugin.deliveryPattern ≠ .PULL then
    pure .rescheduled
  else if c.message.deliveryQueueId = "" then
    pure .rescheduled
  else pollTask svc c

def retryAction (c : StageActionContext) : Engine StageOutcome := do
  let moved ← requeue c.message.id .retry
    (c.plugin.initialQueueKey c.message.networkId c.message.device) c.message.priority
  return if moved then .movedOn else .orphaned

/-- One action per stage. -/
def stageActions (name : StageName) : StageActionContext → Engine StageOutcome :=
  match name with
  | .ns => nsAction svc
  | .relayNode => relayNodeAction svc
  | .device => deviceAction svc
  | .awaitingTask => awaitingTaskAction svc
  | .retry => retryAction

end DeviceMessaging
