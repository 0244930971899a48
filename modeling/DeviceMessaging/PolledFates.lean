import DeviceMessaging.StageDrain

namespace DeviceMessaging

open Effect

/-- What a poll makes of the messages: its member waits on, or is told to be an orphan, or a
message ends, or one is retried from a stage. -/
inductive Fate
  | waits
  | astray
  | ends (id : MessageId)
  | retries (id : MessageId) (stage : StageName)

section Fates

variable (svc : Service) (plugin : DeliveryPlugin) (event : ParsedIncomingEvent) (w : World)

/-- A failure, of the message its event is indexed to. -/
def failureFate (message : DeviceMessage) : Fate :=
  match message.deliveryStatus with
  | none => .waits
  | some status =>
    match stageForStatus status plugin.deliveryPattern with
    | none => .astray
    | some stage =>
      if isFinalFailure svc (eventFailure event) message.retryCount then .ends message.id
      else if message.id ∈ w.store.redis.queues (stageKeyFor stage plugin.id) then
        .retries message.id stage
      else .astray

def indexedFate (id : MessageId) : Fate :=
  if event.deliveryStatus ≠ .DELIVERY_FAILED ∧ event.deliveryStatus ≠ .DELIVERY_SUCCESSFUL then
    .waits
  else
    match w.store.redis.messages id with
    | none => .astray
    | some hash =>
      match deserializeMessage id hash with
      | .error _ => .waits
      | .ok message =>
        if event.deliveryStatus = .DELIVERY_FAILED then failureFate svc plugin event w message
        else .ends id

def eventFate : Fate :=
  if event.unsolicited then .waits
  else
    match truthy event.deliveryQueueId with
    | none => .waits
    | some x =>
      match messageIdFromKey (w.store.redis.externals x) with
      | none => .astray
      | some id => indexedFate svc plugin event w id

/-- What the poll of a member of that age makes of the messages. -/
def pollFate (answers : VendorAnswers) (message : DeviceMessage) (messageAgeMs : Int) : Fate :=
  if pullMaxMessageAgeMs ≤ messageAgeMs then .ends message.id
  else if plugin.deliveryPattern ≠ .PULL ∨ message.deliveryQueueId = "" then .waits
  else
    match answers plugin.id message with
    | .ok (some event) => eventFate svc plugin event w
    | .ok none | .error _ => .waits

end Fates

/-- The poll leaves its member out of the queue or due later: it is an orphan, or the queue is its
plugin's and no other message is ended or retried, and the member not from another stage. -/
def Fate.Stands (fate : Fate) (pluginId : PluginId) (q : QueueKey) (id : MessageId) : Prop :=
  match fate with
  | .astray => True
  | .waits => q = .awaitingTask pluginId
  | .ends m => m = id ∧ q = .awaitingTask pluginId
  | .retries m stage => m = id ∧ stage = .awaitingTask ∧ q = .awaitingTask pluginId

variable {svc : Service} {now : Nat} {answers : VendorAnswers} {w w' : World} {id : MessageId}
  {q : QueueKey} {queue : StageQueue} {plugin : DeliveryPlugin} {message : DeviceMessage}
  {event : ParsedIncomingEvent} {fate : Fate} {out : StageOutcome}

end DeviceMessaging
