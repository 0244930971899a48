import Mathlib.Logic.Function.Basic
import Mathlib.Data.String.Basic
import DeviceMessaging.SortedSet
import DeviceMessaging.MemberSet
import DeviceMessaging.MessageHash
import DeviceMessaging.QueueKeys

namespace DeviceMessaging

/-- `WebhookMessagePayload`. -/
structure WebhookMessagePayload where
  deliveryStatus : DeliveryStatus
  device : Device
  id : Option MessageId
  correlationId : Option String
  commandType : Option CommandType
  phase : Option Phase
  response : Option MessageResponse
  failureHistory : Option (List FailureReason)
  unsolicited : Option Bool
  deriving DecidableEq

structure WebhookEvent where
  eventId : String
  occurredAt : Nat
  pluginId : PluginId
  message : WebhookMessagePayload
  deriving DecidableEq

structure WebhookStoredRecord where
  event : WebhookEvent
  attemptCount : Nat
  deriving DecidableEq

/-- The message a webhook record reports the end of. -/
def WebhookStoredRecord.terminalOf (record : WebhookStoredRecord) : Option MessageId :=
  if record.event.message.deliveryStatus.IsTerminal then record.event.message.id else none

/-- The keyspace of the service. Index values are message keys, kept as ids; a
lock is kept with the time it expires at. -/
structure Redis where
  messages : MessageId → Option MessageHash
  queues : QueueKey → SortedSet ℚ MessageId
  queuesToDistributeFrom : MemberSet QueueKey
  locks : QueueKey → Option Nat
  rateLimits : AdmissionNode → MemberSet MessageId
  correlations : String → Option MessageId
  externals : String → Option MessageId
  webhookPayloads : String → Option WebhookStoredRecord
  webhookPending : SortedSet ℚ String
  clock : Nat

def Redis.empty : Redis where
  messages _ := none
  queues _ := .empty
  queuesToDistributeFrom := .empty
  locks _ := none
  rateLimits _ := .empty
  correlations _ := none
  externals _ := none
  webhookPayloads _ := none
  webhookPending := .empty
  clock := 0

section Keyed

variable {κ β : Type} [DecidableEq κ] {f : κ → Option β} {k x : κ} {u v : β}

/-- What is stored under a key after another was set. -/
theorem update_some_cases (h : Function.update f k (some u) x = some v) :
    (x = k ∧ v = u) ∨ (x ≠ k ∧ f x = some v) := by
  by_cases e : x = k
  · subst e
    rw [Function.update_self, Option.some.injEq] at h
    exact .inl ⟨rfl, h.symm⟩
  · rw [Function.update_of_ne e] at h
    exact .inr ⟨e, h⟩

/-- What is stored under a key after another was deleted. -/
theorem update_none_cases (h : Function.update f k none x = some v) : x ≠ k ∧ f x = some v := by
  by_cases e : x = k
  · subst e
    simp at h
  · rw [Function.update_of_ne e] at h
    exact ⟨e, h⟩

end Keyed

namespace Redis

variable (r : Redis)

/-- `HSET`: the write on the stored fields, or on none. -/
@[simp] def hset (id : MessageId) (write : MessageHash → MessageHash) : Redis :=
  { r with messages := Function.update r.messages id (some (write ((r.messages id).getD {}))) }

/-- `HDEL`, which leaves a missing hash missing. -/
@[simp] def hdel (id : MessageId) (write : MessageHash → MessageHash) : Redis :=
  { r with messages := Function.update r.messages id ((r.messages id).map write) }

@[simp] def delMessage (id : MessageId) : Redis :=
  { r with messages := Function.update r.messages id none }

@[simp] def zadd (q : QueueKey) (score : ℚ) (id : MessageId) : Redis :=
  { r with queues := Function.update r.queues q ((r.queues q).insert id score) }

@[simp] def zrem (q : QueueKey) (id : MessageId) : Redis :=
  { r with queues := Function.update r.queues q ((r.queues q).remove id) }

@[simp] def setQueue (q : QueueKey) (s : SortedSet ℚ MessageId) : Redis :=
  { r with queues := Function.update r.queues q s }

@[simp] def saddDistribute (q : QueueKey) : Redis :=
  { r with queuesToDistributeFrom := r.queuesToDistributeFrom.insert q }

@[simp] def sremDistribute (q : QueueKey) : Redis :=
  { r with queuesToDistributeFrom := r.queuesToDistributeFrom.remove q }

@[simp] def saddRateLimit (k : AdmissionNode) (id : MessageId) : Redis :=
  { r with rateLimits := Function.update r.rateLimits k ((r.rateLimits k).insert id) }

@[simp] def sremRateLimit (k : AdmissionNode) (id : MessageId) : Redis :=
  { r with rateLimits := Function.update r.rateLimits k ((r.rateLimits k).remove id) }

@[simp] def setCorrelation (key : String) (id : MessageId) : Redis :=
  { r with correlations := Function.update r.correlations key (some id) }

@[simp] def delCorrelation (key : String) : Redis :=
  { r with correlations := Function.update r.correlations key none }

@[simp] def setExternal (x : String) (id : MessageId) : Redis :=
  { r with externals := Function.update r.externals x (some id) }

@[simp] def delExternal (x : String) : Redis :=
  { r with externals := Function.update r.externals x none }

end Redis

end DeviceMessaging
