import DeviceMessaging.StageTable

namespace DeviceMessaging

variable (svc : Service)

/-- The concurrency payload outgoing hands to the pick. -/
structure ConcurrencyRateLimit where
  key : Option AdmissionNode
  max : Nat

/-- What the pick script returns, read as a message. -/
def readPicked (raw : Option (MessageId × MessageHash)) : Engine (Option DeviceMessage) :=
  match raw with
  | none => pure none
  | some (id, h) =>
    match deserializeMessage id h with
    | .ok message => pure (some message)
    | .error e => throw e

def pickIntoNs (readyQueueKey : QueueKey) (plugin : DeliveryPlugin)
    (concurrencyRateLimit : Option ConcurrencyRateLimit) : Engine (Option DeviceMessage) := do
  let now ← dateNow
  let wait ← (stages .ns).entryWaitMs ⟨plugin.tuning, svc.delivery, some 0⟩
  let raw ← redis (.fetchNextMessageInQueueAndMove {
    sourceQueue := readyQueueKey
    destinationQueue := (stages .ns).key ""
    concurrencyRateLimitKey := concurrencyRateLimit.bind ConcurrencyRateLimit.key
    timeoutAt := dueAfter now wait
    newStatus := (stages .ns).entryStatus
    maxInFlight := (concurrencyRateLimit.map ConcurrencyRateLimit.max).getD 0 })
  readPicked raw

/-- Move a message to the next stage of its pipeline; `deliveryQueueId` creates
the delivery-id index. -/
def advance (messageId : MessageId) (plugin : DeliveryPlugin) (fromStage : StageName)
    (deliveryQueueId : Option String) (retryCount : ParsedInt) : Engine Bool :=
  match nextStage plugin.deliveryPattern fromStage with
  | none => throw ("No stage after \"" ++ fromStage.text ++ "\" on the " ++
      plugin.deliveryPattern.text ++ " pipeline")
  | some next => do
    let now ← dateNow
    let wait ← (stages next).entryWaitMs ⟨plugin.tuning, svc.delivery, retryCount⟩
    redis (.moveMessageBetweenQueues {
      sourceQueue := stageKeyFor fromStage plugin.id
      destinationQueue := stageKeyFor next plugin.id
      messageId := messageId
      destinationScore := dueAfter now wait
      deliveryStatus := (stages next).entryStatus
      deliveryQueueId := deliveryQueueId.getD ""
      indexKey := truthy deliveryQueueId })

/-- Attempts so far, one more. -/
def succRetryCount (n : ParsedInt) : ParsedInt :=
  n.map (· + 1)

/-- Move a failed message into the retry stage, unless it left `fromKey`. -/
def enterRetry (messageId : MessageId) (fromKey : QueueKey) (currentRetryCount : ParsedInt)
    (failureHistory : List FailureReason) (plugin : DeliveryPlugin) : Engine Bool := do
  let inQueue ← redis (.zscore fromKey messageId)
  match inQueue with
  | none => return false
  | some _ =>
    let now ← dateNow
    let wait ← (stages .retry).entryWaitMs ⟨plugin.tuning, svc.delivery, currentRetryCount⟩
    let fields ← redis (.hmget messageId)
    redis (.enterRetry {
      messageId := messageId
      fromKey := fromKey
      dueAt := dueAfter now wait
      retryCount := succRetryCount currentRetryCount
      failureHistory := failureHistory
      staleDeliveryQueueId := truthy fields.1
      concurrencyRateLimitKey := fields.2 })
    return true

/-- Extend the wait of a member still sitting in its stage. -/
def reschedule (stage : StageName) (message : DeviceMessage) (messageAgeMs : Int)
    (plugin : DeliveryPlugin) : Engine Unit := do
  let wait ← rescheduleWaitMsFor stage ⟨message, messageAgeMs, plugin.tuning, svc.delivery⟩
  let now ← dateNow
  redis (.zaddXx (stageKeyFor stage plugin.id) (dueAfter now wait) message.id)

/-- Every queue the message could be a member of: the stages under its plugin id
and the ready queue it entered from. -/
def purgeQueues (message : DeviceMessage) (plugin : DeliveryPlugin) : List QueueKey :=
  enumerateStageKeys [message.pluginId.getD "undefined"] ++
    [plugin.initialQueueKey message.networkId message.device]

def purge (message : DeviceMessage) (plugin : DeliveryPlugin) : Engine Unit :=
  redis (.messageFullCleanup message (purgeQueues message plugin))

def claimFromQueue (queueKey : QueueKey) (messageId : MessageId) : Engine Bool :=
  redis (.removeMessageFromQueue queueKey messageId)

/-- Backoff elapsed: from the retry queue to the ready queue. A priority of `NaN`
makes a score of `NaN`. -/
def requeue (messageId : MessageId) (fromKey toKey : QueueKey) (priority : ParsedInt) :
    Engine Bool := do
  let moved ← redis (.moveMessageBetweenQueues {
    sourceQueue := fromKey
    destinationQueue := toKey
    messageId := messageId
    destinationScore := priority.map fun n => -1 * (n : ℚ)
    deliveryStatus := .QUEUED })
  if moved then
    redis (.saddDistribute toKey)
    return true
  else return false

end DeviceMessaging
