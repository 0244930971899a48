import DeviceMessaging.PolledFates

namespace DeviceMessaging

open Effect

/-- The turn of a member whose plugin name is inherited goes well. -/
def InheritedStands (svc : Service) (queue : StageQueue) (message : DeviceMessage) (w : World) :
    Prop :=
  match queue.stage with
  | .ns => w.inFlightSends message.id = none ∧
    isFinalFailure svc { reason := timeoutReason .ns none } message.retryCount = false
  | .relayNode =>
    isFinalFailure svc { reason := timeoutReason .relayNode none } message.retryCount = false
  | .device =>
    isFinalFailure svc { reason := timeoutReason .device none } message.retryCount = false
  | .awaitingTask => queue.key = .awaitingTask "undefined"
  | .retry => True

/-- The turn of a member that loads goes well. -/
def MessageStands (svc : Service) (answers : VendorAnswers) (queue : StageQueue) (now : Nat)
    (w : World) (message : DeviceMessage) : Prop :=
  match namedOwner svc message with
  | none | some (.plugin (.tokenOnly _)) => True
  | some .inherited =>
    (svc.decodeTime message.id).isSome ∧ InheritedStands svc queue message w
  | some (.plugin (.delivery plugin)) =>
    ∃ time, svc.decodeTime message.id = some time ∧ (queue.stage = .awaitingTask →
      (pollFate svc plugin w answers message ((now : Int) - time)).Stands plugin.id queue.key
        message.id)

/-- The turn of a member goes well in the state it finds. -/
def Stands (svc : Service) (answers : VendorAnswers) (queue : StageQueue) (now : Nat) (w : World)
    (id : MessageId) : Prop :=
  ∀ hash, w.store.redis.messages id = some hash →
    ∃ message, deserializeMessage id hash = .ok message ∧
      MessageStands svc answers queue now w message

variable {svc : Service} {now : Nat} {answers : VendorAnswers} {w w' : World} {id : MessageId}
  {q : QueueKey} {queue : StageQueue} {plugin : DeliveryPlugin} {message : DeviceMessage}
  {event : ParsedIncomingEvent} {fate : Fate} {out : StageOutcome}

/-- A turn that does not go well: the member is where it was, and a member that the turn did
change has no task to be polled for any more, which this one had. -/
structure Missed (q : QueueKey) (id : MessageId) (w w' : World) : Prop where
  score : (w'.store.redis.queues q).score id = (w.store.redis.queues q).score id
  others : ∀ x, x ≠ id →
    (w'.store.redis.messages x = w.store.redis.messages x ∧
      ∀ p, (w'.store.redis.queues p).score x = (w.store.redis.queues p).score x) ∨
    (Taskless x w' ∧ ¬ Taskless id w)

section Polled

end Polled

section Inherited

end Inherited

end DeviceMessaging
