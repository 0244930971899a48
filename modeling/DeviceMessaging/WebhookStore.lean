import DeviceMessaging.Handlers

namespace DeviceMessaging

/-- A record after some attempts, with the error of the last one. -/
structure AttemptedRecord extends WebhookStoredRecord where
  lastError : Option String := none
  deriving DecidableEq

/-- The `webhook:*` keys. -/
structure WebhookKeys where
  pending : SortedSet ℚ String
  payload : String → Option AttemptedRecord
  deadLetter : String → Option AttemptedRecord

def WebhookKeys.empty : WebhookKeys where
  pending := .empty
  payload _ := none
  deadLetter _ := none

/-- `WEBHOOK_DRAIN_BATCH_SIZE`. -/
def webhookDrainBatchSize : Nat :=
  50

/-- A command or MULTI of the webhook store. -/
inductive WebhookStoreCmd
  | enqueue (record : AttemptedRecord) (nextAttemptAtMs : Nat)
  | listDueEventIds (nowMs : Nat)
  | getRecord (eventId : String)
  | reschedule (record : AttemptedRecord) (nextAttemptAtMs : ℚ)
  | complete (eventId : String)
  | deadLetter (record : AttemptedRecord) (ttlSeconds : Nat)

@[reducible] def WebhookStoreCmd.Value (c : WebhookStoreCmd) : Type :=
  match c with
  | listDueEventIds .. => List String
  | getRecord .. => Option AttemptedRecord
  | _ => Unit

namespace WebhookKeys

/-- `SET` of the payload and `ZADD` of its event: `enqueue` and `reschedule`. -/
def schedule (k : WebhookKeys) (record : AttemptedRecord) (nextAttemptAtMs : ℚ) : WebhookKeys :=
  { k with
    payload := Function.update k.payload record.event.eventId (some record)
    pending := k.pending.insert record.event.eventId nextAttemptAtMs }

/-- `ZREM` and `DEL` of the payload. -/
def forget (k : WebhookKeys) (eventId : String) : WebhookKeys :=
  { k with
    pending := k.pending.remove eventId
    payload := Function.update k.payload eventId none }

end WebhookKeys

def WebhookStoreCmd.run (c : WebhookStoreCmd) (k : WebhookKeys) : c.Value × WebhookKeys :=
  match c with
  | enqueue record nextAttemptAtMs => ((), k.schedule record nextAttemptAtMs)
  | listDueEventIds nowMs => (k.pending.due nowMs webhookDrainBatchSize, k)
  | getRecord eventId => (k.payload eventId, k)
  | reschedule record nextAttemptAtMs => ((), k.schedule record nextAttemptAtMs)
  | complete eventId => ((), k.forget eventId)
  | deadLetter record _ =>
    ((), { k with
      deadLetter := Function.update k.deadLetter record.event.eventId (some record) }.forget
        record.event.eventId)

/-- The webhook keys of the whole keyspace, with the dead letters beside it. -/
def Redis.webhookKeys (r : Redis) (deadLetter : String → Option AttemptedRecord) : WebhookKeys where
  pending := r.webhookPending
  payload eventId := (r.webhookPayloads eventId).map fun record => { record with }
  deadLetter := deadLetter

/-- The engine's hand-over of an event is the store's `enqueue`. -/
theorem webhookEnqueueMulti_keys (record : WebhookStoredRecord) (now : Nat) (r : Redis)
    (deadLetter : String → Option AttemptedRecord) :
    (webhookEnqueueMulti record now r).webhookKeys deadLetter =
      ((WebhookStoreCmd.enqueue { record with } now).run (r.webhookKeys deadLetter)).2 := by
  simp only [Redis.webhookKeys, webhookEnqueueMulti, WebhookStoreCmd.run, WebhookKeys.schedule,
    WebhookKeys.mk.injEq, true_and, and_true]
  funext eventId
  by_cases he : eventId = record.event.eventId <;> simp [Function.update, he]

end DeviceMessaging
