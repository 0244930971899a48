import DeviceMessaging.Commands

namespace DeviceMessaging

variable {r : Redis} {id x : MessageId}

@[simp] theorem setIndex_messages (k : Option String) :
    (setIndex r k id).messages = r.messages := by
  cases k <;> rfl

@[simp] theorem delStaleIndex_messages (k : Option String) :
    (delStaleIndex r k).messages = r.messages := by
  cases k <;> rfl

@[simp] theorem delCorrelationIndex_messages (c : Option String) (phase : Option Phase) :
    (delCorrelationIndex r c phase).messages = r.messages := by
  cases c <;> rfl

@[simp] theorem sremSlot_messages (k : Option AdmissionNode) :
    (sremSlot r k id).messages = r.messages := by
  cases k <;> rfl

@[simp] theorem sremIfEmpty_messages (q : QueueKey) :
    (sremIfEmpty r q).messages = r.messages := by
  unfold sremIfEmpty
  split <;> rfl

@[simp] theorem zremAll_messages {ps : List QueueKey} :
    (zremAll r ps id).messages = r.messages := by
  unfold zremAll
  induction ps generalizing r with
  | nil => rfl
  | cons p ps ih => exact ih

@[simp] theorem validateAndClean_messages (k : AdmissionNode) (ids : List MessageId) :
    (validateAndClean k ids r).messages = r.messages := by
  unfold validateAndClean
  induction ids generalizing r with
  | nil => rfl
  | cons i ids ih => exact ih

/-- The hash a committed move leaves. -/
def movedHash (a : MoveArgs) (h : MessageHash) : MessageHash :=
  setDelivery a.deliveryStatus a.deliveryQueueId h

theorem move_messages (a : MoveArgs) (r : Redis) :
    (moveMessageBetweenQueues a r).2.messages = r.messages ∨
      ∃ h, r.messages a.messageId = some h ∧ a.messageId ∈ r.queues a.sourceQueue ∧
        (moveMessageBetweenQueues a r).2.messages =
          Function.update r.messages a.messageId (some (movedHash a h)) := by
  rcases move_cases a r with ⟨-, he⟩ | ⟨-, -, he⟩ | ⟨-, -, he⟩ | ⟨hm, h, score, hh, -, he⟩ <;>
    rw [he]
  · exact .inl rfl
  · exact .inl rfl
  · exact .inl rfl
  · exact .inr ⟨h, hh, hm, by simp [moveClaimed, movedHash, hh]⟩

/-- The hash a committed pick leaves. -/
def pickedHash (a : FetchArgs) (h : MessageHash) : MessageHash :=
  { h with
    deliveryStatus := some a.newStatus
    concurrencyRateLimitKey := a.concurrencyRateLimitKey <|> h.concurrencyRateLimitKey }

theorem pickClaimed_messages {a : FetchArgs} {t : ℚ} {h : MessageHash}
    (hh : r.messages id = some h) :
    (pickClaimed a t id r).messages = Function.update r.messages id (some (pickedHash a h)) := by
  unfold pickClaimed claimConcurrencySlot
  cases hk : a.concurrencyRateLimitKey <;> simp [hh, pickedHash, hk]

theorem popSource_messages {a : FetchArgs} {rest : SortedSet ℚ MessageId} :
    (popSource a rest r).messages = r.messages := by
  simp [popSource]

theorem fetch_messages (a : FetchArgs) (r : Redis) :
    (fetchNextMessageInQueueAndMove a r).2.messages = r.messages ∨
      ∃ id h, r.messages id = some h ∧ id ∈ r.queues a.sourceQueue ∧
        (fetchNextMessageInQueueAndMove a r).2.messages =
          Function.update r.messages id (some (pickedHash a h)) := by
  rcases fetch_cases a r with he | he | ⟨id, rest, hp, ⟨-, he⟩ | ⟨-, he⟩ | ⟨h, t, hh, -, he⟩⟩ <;>
    rw [he]
  · exact .inl rfl
  · exact .inl rfl
  · exact .inl popSource_messages
  · exact .inl popSource_messages
  · refine .inr ⟨id, h, hh, (SortedSet.mem_popMin hp).mpr (.inl rfl), ?_⟩
    rw [pickClaimed_messages (by rw [popSource_messages, hh]), popSource_messages]

/-- The hash the retry transaction leaves. -/
def retryHash (a : EnterRetryMulti) (h : MessageHash) : MessageHash :=
  { setRetry a h with
    deliveryQueueId := none
    concurrencyRateLimitKey :=
      if a.concurrencyRateLimitKey = none then h.concurrencyRateLimitKey else none }

theorem enterRetry_messages (a : EnterRetryMulti) (r : Redis) :
    (enterRetryMulti a r).2.messages =
      Function.update r.messages a.messageId
        (some (retryHash a ((r.messages a.messageId).getD {}))) := by
  unfold enterRetryMulti
  cases hd : a.dueAt <;> cases hk : a.concurrencyRateLimitKey <;>
    simp [releaseConcurrencySlot, retryHash, hk, setRetry]

theorem enqueue_messages (id : MessageId) (dto : CreateDeviceMessage) (q : QueueKey) (r : Redis) :
    (enqueueMulti id dto q r).messages =
      Function.update r.messages id
        (some (((r.messages id).getD {}).write (serializeCreateDeviceMessage dto))) := by
  unfold enqueueMulti
  cases dto.correlationId <;> rfl

theorem cleanup_messages (m : DeviceMessage) (qs : List QueueKey) (r : Redis) :
    (messageFullCleanup m qs r).messages = Function.update r.messages m.id none := by
  simp [messageFullCleanup]

/-- What a command can do to the stored hashes. -/
inductive HashWrite (r : Redis) (i : MessageId) :
    RedisCmd → (MessageId → Option MessageHash) → Prop
  | keep {c : RedisCmd} : HashWrite r i c r.messages
  | enqueue {dto : CreateDeviceMessage} {q : QueueKey} :
    HashWrite r i (.enqueueDeviceMessage dto q) (Function.update r.messages i
      (some (((r.messages i).getD {}).write (serializeCreateDeviceMessage dto))))
  | move {a : MoveArgs} {h : MessageHash} (hh : r.messages a.messageId = some h)
    (hq : a.messageId ∈ r.queues a.sourceQueue) :
    HashWrite r i (.moveMessageBetweenQueues a)
      (Function.update r.messages a.messageId (some (movedHash a h)))
  | pick {a : FetchArgs} {m : MessageId} {h : MessageHash} (hh : r.messages m = some h)
    (hq : m ∈ r.queues a.sourceQueue) :
    HashWrite r i (.fetchNextMessageInQueueAndMove a)
      (Function.update r.messages m (some (pickedHash a h)))
  | retry {a : EnterRetryMulti} :
    HashWrite r i (.enterRetry a) (Function.update r.messages a.messageId
      (some (retryHash a ((r.messages a.messageId).getD {}))))
  | purge {m : DeviceMessage} {qs : List QueueKey} :
    HashWrite r i (.messageFullCleanup m qs) (Function.update r.messages m.id none)

theorem exec_hashWrite (s : Store) (c : RedisCmd) (i : MessageId) :
    HashWrite s.redis i c (s.exec c i).2.redis.messages := by
  cases c with
  | enqueueDeviceMessage dto q =>
    simp only [Store.exec, RedisCmd.run, enqueue_messages]
    exact .enqueue
  | moveMessageBetweenQueues a =>
    simp only [Store.exec, RedisCmd.run]
    rcases move_messages a s.redis with he | ⟨h, hh, hq, he⟩ <;> rw [he]
    · exact .keep
    · exact .move hh hq
  | fetchNextMessageInQueueAndMove a =>
    simp only [Store.exec, RedisCmd.run]
    rcases fetch_messages a s.redis with he | ⟨m, h, hh, hq, he⟩ <;> rw [he]
    · exact .keep
    · exact .pick hh hq
  | enterRetry a =>
    simp only [Store.exec, RedisCmd.run, enterRetry_messages]
    exact .retry
  | messageFullCleanup m qs =>
    simp only [Store.exec, RedisCmd.run, cleanup_messages]
    exact .purge
  | zaddXx q score m => cases score <;> exact .keep
  | lockQueueForTimeMs q ms =>
    simp only [Store.exec, RedisCmd.run, lockQueueForTimeMs]
    split <;> exact .keep
  | sremRateLimit k ids =>
    simp only [Store.exec, RedisCmd.run, validateAndClean_messages]
    exact .keep
  | _ => exact .keep

end DeviceMessaging
