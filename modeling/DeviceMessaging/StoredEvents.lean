import DeviceMessaging.Durability
import DeviceMessaging.WebhookStore

namespace DeviceMessaging

open Effect

/-- The payload of the record is stored under its event, and the event is pending. -/
structure WebhookKeys.Stores (k : WebhookKeys) (record : AttemptedRecord) : Prop where
  payload : k.payload record.event.eventId = some record
  pending : record.event.eventId ∈ k.pending

/-- A terminal event of the message is stored. -/
def Redis.HoldsEnd (r : Redis) (id : MessageId) : Prop :=
  ∃ record : WebhookStoredRecord, record.terminalOf = some id ∧
    ∀ deadLetter, (r.webhookKeys deadLetter).Stores { record with }

/-- The payloads and the pending events. -/
def Redis.events (r : Redis) : (String → Option WebhookStoredRecord) × SortedSet ℚ String :=
  (r.webhookPayloads, r.webhookPending)

variable {r : Redis} {s : Store} {id : MessageId}

section Frames

@[simp] theorem setIndex_events (indexKey : Option String) (id : MessageId) :
    (setIndex r indexKey id).events = r.events := by
  cases indexKey <;> rfl

@[simp] theorem claimConcurrencySlot_events (k : Option AdmissionNode) (id : MessageId) :
    (claimConcurrencySlot r k id).events = r.events := by
  cases k <;> rfl

@[simp] theorem popSource_events (a : FetchArgs) (rest : SortedSet ℚ MessageId) :
    (popSource a rest r).events = r.events := by
  unfold popSource sremIfEmpty
  split <;> rfl

@[simp] theorem delStaleIndex_events (x : Option String) :
    (delStaleIndex r x).events = r.events := by
  cases x <;> rfl

@[simp] theorem releaseConcurrencySlot_events (k : Option AdmissionNode) (id : MessageId) :
    (releaseConcurrencySlot r k id).events = r.events := by
  cases k <;> rfl

@[simp] theorem sremSlot_events (k : Option AdmissionNode) (id : MessageId) :
    (sremSlot r k id).events = r.events := by
  cases k <;> rfl

@[simp] theorem delCorrelationIndex_events (c : Option String) (phase : Option Phase) :
    (delCorrelationIndex r c phase).events = r.events := by
  cases c <;> rfl

@[simp] theorem zremAll_events (qs : List QueueKey) (id : MessageId) :
    (zremAll r qs id).events = r.events := by
  unfold zremAll
  induction qs generalizing r with
  | nil => rfl
  | cons q qs ih => exact ih

@[simp] theorem validateAndClean_events (k : AdmissionNode) (ids : List MessageId) :
    (validateAndClean k ids r).events = r.events := by
  unfold validateAndClean
  induction ids generalizing r with
  | nil => rfl
  | cons id ids ih => exact ih

theorem move_events (a : MoveArgs) : (moveMessageBetweenQueues a r).2.events = r.events := by
  rcases move_cases a r with ⟨-, h⟩ | ⟨-, -, h⟩ | ⟨-, -, h⟩ | ⟨-, _, _, -, -, h⟩ <;> rw [h]
  · rfl
  · rfl
  · exact setIndex_events ..

theorem fetch_events (a : FetchArgs) :
    (fetchNextMessageInQueueAndMove a r).2.events = r.events := by
  rcases fetch_cases a r with h | h | ⟨id, rest, -, ⟨-, h⟩ | ⟨-, h⟩ | ⟨_, t, -, -, h⟩⟩ <;> rw [h]
  · rfl
  · exact popSource_events a rest
  · exact popSource_events a rest
  · exact (claimConcurrencySlot_events ..).trans (popSource_events a rest)

theorem enqueue_events (dto : CreateDeviceMessage) (q : QueueKey) :
    (enqueueMulti id dto q r).events = r.events := by
  unfold enqueueMulti
  cases dto.correlationId <;> rfl

theorem enterRetry_events (a : EnterRetryMulti) : (enterRetryMulti a r).2.events = r.events := by
  unfold enterRetryMulti
  cases a.dueAt <;> simp only [releaseConcurrencySlot_events, delStaleIndex_events] <;> rfl

theorem cleanup_events (m : DeviceMessage) (qs : List QueueKey) :
    (messageFullCleanup m qs r).events = r.events := by
  unfold messageFullCleanup
  simp only [delStaleIndex_events, delCorrelationIndex_events, sremSlot_events, zremAll_events]
  rfl

/-- Only a hand-over of an event touches the events that are stored. -/
theorem events_exec {c : RedisCmd} (i : MessageId)
    (hc : ∀ record now, c ≠ .webhookEnqueue record now) :
    (s.exec c i).2.redis.events = s.redis.events := by
  cases c with
  | webhookEnqueue record now => exact absurd rfl (hc record now)
  | enqueueDeviceMessage dto q => exact enqueue_events dto q
  | moveMessageBetweenQueues a => exact move_events a
  | fetchNextMessageInQueueAndMove a => exact fetch_events a
  | enterRetry a => exact enterRetry_events a
  | messageFullCleanup m qs => exact cleanup_events m qs
  | zaddXx q score m => cases score <;> rfl
  | lockQueueForTimeMs q ms =>
    simp only [Store.exec, RedisCmd.run, lockQueueForTimeMs]
    split <;> rfl
  | sremRateLimit key ids => exact validateAndClean_events key ids
  | _ => rfl

end Frames

theorem holdsEnd_payload (h : r.HoldsEnd id) : ∃ record, record.terminalOf = some id ∧
    r.webhookPayloads record.event.eventId = some record := by
  obtain ⟨record, ht, hs⟩ := h
  refine ⟨record, ht, ?_⟩
  obtain ⟨stored, hr, he⟩ := Option.map_eq_some_iff.mp (hs fun _ => none).payload
  cases stored
  cases record
  cases he
  exact hr

/-- What is handed over is stored. -/
theorem holdsEnd_handOver {record : WebhookStoredRecord} (now : Nat) (i : MessageId)
    (hr : record.terminalOf = some id) :
    (s.exec (.webhookEnqueue record now) i).2.redis.HoldsEnd id := by
  refine ⟨record, hr, fun deadLetter => ?_⟩
  have hkeys := webhookEnqueueMulti_keys record now s.redis deadLetter
  change ((webhookEnqueueMulti record now s.redis).webhookKeys deadLetter).Stores _
  rw [hkeys]
  exact ⟨Function.update_self .., SortedSet.mem_insert.mpr (.inl rfl)⟩

/-- What is told by then was told before, or is handed over now. -/
theorem reported_exec {c : RedisCmd} {i : MessageId} (h : (s.exec c i).2.Reported id) :
    s.Reported id ∨ ∃ record now, c = .webhookEnqueue record now ∧
      record.terminalOf = some id := by
  obtain ⟨record, hr, ht⟩ := h
  cases c with
  | webhookEnqueue record' now =>
    rcases List.mem_append.mp hr with hr | hr
    · exact .inl ⟨record, hr, ht⟩
    · exact .inr ⟨record', now, rfl, List.mem_singleton.mp hr ▸ ht⟩
  | _ => exact .inl ⟨record, hr, ht⟩

/-- A payload is that of an event that was handed over. -/
def Store.PayloadsPersisted (s : Store) : Prop :=
  ∀ eventId record, s.redis.webhookPayloads eventId = some record → record ∈ s.persisted

theorem payloadsPersisted_exec {c : RedisCmd} (i : MessageId) (hs : s.PayloadsPersisted) :
    (s.exec c i).2.PayloadsPersisted := by
  intro eventId record hr
  by_cases hc : ∃ record now, c = .webhookEnqueue record now
  · obtain ⟨record', now, rfl⟩ := hc
    rcases update_some_cases hr with ⟨-, rfl⟩ | ⟨-, hr⟩
    · simp [Store.exec, Store.note]
    · exact persisted_exec record (hs eventId record hr)
  · have hsame := congrArg Prod.fst (events_exec (s := s) i fun record now he =>
      hc ⟨record, now, he⟩)
    have hbefore : s.redis.webhookPayloads eventId = some record :=
      (congrFun hsame eventId).symm.trans hr
    exact persisted_exec record (hs eventId record hbefore)

theorem reported_of_holdsEnd (hs : s.PayloadsPersisted) (h : s.redis.HoldsEnd id) :
    s.Reported id := by
  obtain ⟨record, ht, hp⟩ := holdsEnd_payload h
  exact ⟨record, hs _ record hp, ht⟩

end DeviceMessaging
