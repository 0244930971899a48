import DeviceMessaging.RedisState
import DeviceMessaging.Plugins

namespace DeviceMessaging

def floatError : String :=
  "ERR value is not a valid float"

/-- Arguments of `move-message-between-queues.lua`. A score of `none` is `NaN`. -/
structure MoveArgs where
  sourceQueue : QueueKey
  destinationQueue : QueueKey
  messageId : MessageId
  destinationScore : Option ℚ
  deliveryStatus : DeliveryStatus
  deliveryQueueId : String := ""
  indexKey : Option String := none
  deriving DecidableEq

def setDelivery (status : DeliveryStatus) (deliveryQueueId : String) (h : MessageHash) :
    MessageHash :=
  if deliveryQueueId = "" then { h with deliveryStatus := some status }
  else { h with deliveryStatus := some status, deliveryQueueId := some deliveryQueueId }

def setIndex (r : Redis) (indexKey : Option String) (id : MessageId) : Redis :=
  match indexKey with
  | none => r
  | some x => r.setExternal x id

/-- Steps 3 to 5 of the move, under its gates. -/
def moveClaimed (a : MoveArgs) (score : ℚ) (r : Redis) : Redis :=
  setIndex ((r.zadd a.destinationQueue score a.messageId).hset a.messageId
    (setDelivery a.deliveryStatus a.deliveryQueueId)) a.indexKey a.messageId

/-- `move-message-between-queues.lua`. -/
def moveMessageBetweenQueues (a : MoveArgs) (r : Redis) : Except String Bool × Redis :=
  if a.messageId ∉ r.queues a.sourceQueue then (.ok false, r)
  else
    match r.messages a.messageId, a.destinationScore with
    | none, _ => (.ok false, r.zrem a.sourceQueue a.messageId)
    | some _, none => (.error floatError, r.zrem a.sourceQueue a.messageId)
    | some _, some score => (.ok true, moveClaimed a score (r.zrem a.sourceQueue a.messageId))

/-- What the move does: nothing, scrub an orphan, fail on a `NaN` score after its
`ZREM`, or commit. -/
theorem move_cases (a : MoveArgs) (r : Redis) :
    (a.messageId ∉ r.queues a.sourceQueue ∧ moveMessageBetweenQueues a r = (.ok false, r)) ∨
    (a.messageId ∈ r.queues a.sourceQueue ∧ r.messages a.messageId = none ∧
      moveMessageBetweenQueues a r = (.ok false, r.zrem a.sourceQueue a.messageId)) ∨
    (a.messageId ∈ r.queues a.sourceQueue ∧ a.destinationScore = none ∧
      moveMessageBetweenQueues a r =
        (.error floatError, r.zrem a.sourceQueue a.messageId)) ∨
    (a.messageId ∈ r.queues a.sourceQueue ∧ ∃ h score, r.messages a.messageId = some h ∧
      a.destinationScore = some score ∧ moveMessageBetweenQueues a r =
        (.ok true, moveClaimed a score (r.zrem a.sourceQueue a.messageId))) := by
  unfold moveMessageBetweenQueues
  by_cases hm : a.messageId ∈ r.queues a.sourceQueue
  · cases hr : r.messages a.messageId <;> cases hs : a.destinationScore <;> simp [hm]
  · simp [hm]

/-- Arguments of `fetch-next-message-in-queue.lua`; no rate-limit key skips the cap. -/
structure FetchArgs where
  sourceQueue : QueueKey
  destinationQueue : QueueKey
  concurrencyRateLimitKey : Option AdmissionNode
  timeoutAt : Option ℚ
  newStatus : DeliveryStatus
  maxInFlight : Nat
  deriving DecidableEq

def concurrencyCapFull (a : FetchArgs) (r : Redis) : Bool :=
  match a.concurrencyRateLimitKey with
  | none => false
  | some k => 0 < a.maxInFlight ∧ a.maxInFlight ≤ (r.rateLimits k).card

def claimConcurrencySlot (r : Redis) (k : Option AdmissionNode) (id : MessageId) : Redis :=
  match k with
  | none => r
  | some k => (r.saddRateLimit k id).hset id fun h => { h with concurrencyRateLimitKey := some k }

def sremIfEmpty (r : Redis) (q : QueueKey) : Redis :=
  if (r.queues q).isEmpty then r.sremDistribute q else r

/-- Steps 4 and 5 of the pick. -/
def pickClaimed (a : FetchArgs) (timeoutAt : ℚ) (id : MessageId) (r : Redis) : Redis :=
  claimConcurrencySlot
    ((r.zadd a.destinationQueue timeoutAt id).hset id fun h =>
      { h with deliveryStatus := some a.newStatus })
    a.concurrencyRateLimitKey id

/-- Steps 1 and 2 of the pick: the source without its first member. -/
def popSource (a : FetchArgs) (rest : SortedSet ℚ MessageId) (r : Redis) : Redis :=
  sremIfEmpty (r.setQueue a.sourceQueue rest) a.sourceQueue

/-- `fetch-next-message-in-queue.lua`. -/
def fetchNextMessageInQueueAndMove (a : FetchArgs) (r : Redis) :
    Except String (Option (MessageId × MessageHash)) × Redis :=
  if concurrencyCapFull a r then (.ok none, r)
  else
    match (r.queues a.sourceQueue).popMin with
    | none => (.ok none, r.sremDistribute a.sourceQueue)
    | some (id, rest) =>
      match r.messages id, a.timeoutAt with
      | none, _ => (.ok none, popSource a rest r)
      | some _, none => (.error floatError, popSource a rest r)
      | some _, some timeoutAt =>
        let picked := pickClaimed a timeoutAt id (popSource a rest r)
        (.ok ((picked.messages id).map fun h => (id, h)), picked)

/-- What the pick does: nothing, note that its source is empty, scrub an orphan,
fail on a `NaN` score after its `ZPOPMIN`, or commit. -/
theorem fetch_cases (a : FetchArgs) (r : Redis) :
    fetchNextMessageInQueueAndMove a r = (.ok none, r) ∨
    fetchNextMessageInQueueAndMove a r = (.ok none, r.sremDistribute a.sourceQueue) ∨
    ∃ id rest, (r.queues a.sourceQueue).popMin = some (id, rest) ∧
      ((r.messages id = none ∧
        fetchNextMessageInQueueAndMove a r = (.ok none, popSource a rest r)) ∨
      (a.timeoutAt = none ∧
        fetchNextMessageInQueueAndMove a r = (.error floatError, popSource a rest r)) ∨
      ∃ h timeoutAt, r.messages id = some h ∧ a.timeoutAt = some timeoutAt ∧
        fetchNextMessageInQueueAndMove a r =
          (.ok (((pickClaimed a timeoutAt id (popSource a rest r)).messages id).map
            fun h => (id, h)), pickClaimed a timeoutAt id (popSource a rest r))) := by
  unfold fetchNextMessageInQueueAndMove
  by_cases hc : concurrencyCapFull a r = true
  · simp [hc]
  · cases hp : (r.queues a.sourceQueue).popMin with
    | none => simp [hc]
    | some e =>
      obtain ⟨id, rest⟩ := e
      refine .inr (.inr ⟨id, rest, rfl, ?_⟩)
      cases hr : r.messages id <;> cases ht : a.timeoutAt <;> simp [hc, hr]

/-- The MULTI of `enqueueDeviceMessage`. -/
def enqueueMulti (id : MessageId) (dto : CreateDeviceMessage) (queueKey : QueueKey) (r : Redis) :
    Redis :=
  let r := ((r.hset id fun h => h.write (serializeCreateDeviceMessage dto)).zadd queueKey
    (-1 * dto.priority.value) id).saddDistribute queueKey
  match dto.correlationId with
  | none => r
  | some c => r.setCorrelation (indexCorrelationId c dto.phase) id

/-- What the MULTI of `enterRetry` is built from. -/
structure EnterRetryMulti where
  messageId : MessageId
  fromKey : QueueKey
  dueAt : Option ℚ
  retryCount : ParsedInt
  failureHistory : List FailureReason
  staleDeliveryQueueId : Option String
  concurrencyRateLimitKey : Option AdmissionNode
  deriving DecidableEq

def setRetry (a : EnterRetryMulti) (h : MessageHash) : MessageHash :=
  { h with
    retryCount := some (a.retryCount.elim .unreadable .text)
    deliveryStatus := some .TO_RETRY
    failureHistory := some (.text a.failureHistory) }

def delStaleIndex (r : Redis) (x : Option String) : Redis :=
  match x with
  | none => r
  | some x => r.delExternal x

def releaseConcurrencySlot (r : Redis) (k : Option AdmissionNode) (id : MessageId) : Redis :=
  match k with
  | none => r
  | some k => (r.sremRateLimit k id).hdel id fun h => { h with concurrencyRateLimitKey := none }

/-- The MULTI of `enterRetry`. A `NaN` due time fails its `ZADD` only: the other
commands of the transaction are executed all the same. -/
def enterRetryMulti (a : EnterRetryMulti) (r : Redis) : Except String Unit × Redis :=
  let r := ((r.hset a.messageId (setRetry a)).hdel a.messageId fun h =>
    { h with deliveryQueueId := none }).zrem a.fromKey a.messageId
  match a.dueAt with
  | none => (.error "[REDIS] enterRetry failed",
      releaseConcurrencySlot (delStaleIndex r a.staleDeliveryQueueId)
        a.concurrencyRateLimitKey a.messageId)
  | some dueAt => (.ok (),
      releaseConcurrencySlot (delStaleIndex (r.zadd .retry dueAt a.messageId)
        a.staleDeliveryQueueId) a.concurrencyRateLimitKey a.messageId)

def zremAll (r : Redis) (queueKeys : List QueueKey) (id : MessageId) : Redis :=
  queueKeys.foldl (fun r q => r.zrem q id) r

def sremSlot (r : Redis) (k : Option AdmissionNode) (id : MessageId) : Redis :=
  match k with
  | none => r
  | some k => r.sremRateLimit k id

def delCorrelationIndex (r : Redis) (c : Option String) (phase : Option Phase) : Redis :=
  match c with
  | none => r
  | some c => r.delCorrelation (indexCorrelationId c phase)

/-- The MULTI of `messageFullCleanup`. -/
def messageFullCleanup (message : DeviceMessage) (queueKeys : List QueueKey) (r : Redis) : Redis :=
  delStaleIndex
    (delCorrelationIndex
      (sremSlot (zremAll (r.delMessage message.id) queueKeys message.id)
        message.concurrencyRateLimitKey message.id)
      message.correlationId message.phase)
    (truthy (some message.deliveryQueueId))

/-- The MULTI of the webhook store's `enqueue`. -/
def webhookEnqueueMulti (record : WebhookStoredRecord) (nextAttemptAtMs : Nat) (r : Redis) :
    Redis :=
  { r with
    webhookPayloads := Function.update r.webhookPayloads record.event.eventId (some record)
    webhookPending := r.webhookPending.insert record.event.eventId nextAttemptAtMs }

/-- `SET key locked PX durationMs NX`. -/
def lockQueueForTimeMs (queueKey : QueueKey) (durationMs : Nat) (r : Redis) : Bool × Redis :=
  if ∃ e ∈ r.locks queueKey, r.clock < e then (false, r)
  else (true, { r with locks := Function.update r.locks queueKey (some (r.clock + durationMs)) })

/-- A lock is all that locking can change. -/
theorem lockQueue_locks (queueKey : QueueKey) (durationMs : Nat) (r : Redis) :
    ∃ locks, (lockQueueForTimeMs queueKey durationMs r).2 = { r with locks := locks } := by
  unfold lockQueueForTimeMs
  split
  next => exact ⟨r.locks, rfl⟩
  next => exact ⟨_, rfl⟩

def validateAndClean (k : AdmissionNode) (ids : List MessageId) (r : Redis) : Redis :=
  ids.foldl (fun r id => r.sremRateLimit k id) r

end DeviceMessaging
