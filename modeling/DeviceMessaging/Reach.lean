import DeviceMessaging.PlainPrograms
import DeviceMessaging.ProperRuns
import DeviceMessaging.RedisQueues

namespace DeviceMessaging

open Effect

variable {svc : Service} {s : Store} {r : Redis} {c : RedisCmd} {i id x : MessageId} {q : QueueKey}

/-- The queue is one the runner drains, or a ready queue distribute passes look at. -/
def Scanned (svc : Service) (s : Store) (q : QueueKey) : Prop :=
  q ∈ enumerateStageKeys (pullPluginIds svc) ∨
    (∃ node, q = .ready node) ∧ q ∈ s.redis.queuesToDistributeFrom

/-- The engine comes across the message: it waits in a queue that is scanned. -/
def Finds (svc : Service) (s : Store) (id : MessageId) : Prop :=
  ∃ q, id ∈ s.redis.queues q ∧ Scanned svc s q

theorem mem_enumerateStageKeys {ids : List PluginId} :
    q ∈ enumerateStageKeys ids ↔ ∃ stage id, q = stageKeyFor stage id ∧
      ((stages stage).isPerPlugin = true → id ∈ ids) := by
  simp only [enumerateStageKeys, enumerateStageQueues, List.mem_map, List.mem_flatMap]
  constructor
  · rintro ⟨sq, ⟨stage, -, hsq⟩, rfl⟩
    split at hsq
    next hp =>
      obtain ⟨id, hid, rfl⟩ := List.mem_map.mp hsq
      exact ⟨stage, id, rfl, fun _ => hid⟩
    next hp =>
      rw [List.mem_singleton] at hsq
      subst hsq
      exact ⟨stage, "", rfl, fun h => absurd h hp⟩
  · rintro ⟨stage, id, rfl, hid⟩
    cases stage with
    | awaitingTask =>
      exact ⟨⟨.awaitingTask, .awaitingTask id⟩, ⟨.awaitingTask, by decide, by simpa [stages] using hid rfl⟩, rfl⟩
    | ns => exact ⟨⟨.ns, .ns⟩, ⟨.ns, by decide, by simp [stages]⟩, rfl⟩
    | relayNode => exact ⟨⟨.relayNode, .relayNode⟩, ⟨.relayNode, by decide, by simp [stages]⟩, rfl⟩
    | device => exact ⟨⟨.device, .device⟩, ⟨.device, by decide, by simp [stages]⟩, rfl⟩
    | retry => exact ⟨⟨.retry, .retry⟩, ⟨.retry, by decide, by simp [stages]⟩, rfl⟩

theorem ns_scanned {ids : List PluginId} : QueueKey.ns ∈ enumerateStageKeys ids :=
  mem_enumerateStageKeys.mpr ⟨.ns, "", rfl, fun h => nomatch h⟩

theorem retry_scanned {ids : List PluginId} : QueueKey.retry ∈ enumerateStageKeys ids :=
  mem_enumerateStageKeys.mpr ⟨.retry, "", rfl, fun h => nomatch h⟩

theorem mem_pullPluginIds {plugin : DeliveryPlugin}
    (hp : svc.registry.delivery plugin.id = some plugin) (hpull : plugin.deliveryPattern = .PULL) :
    plugin.id ∈ pullPluginIds svc := by
  unfold PluginRegistry.delivery at hp
  split at hp
  next p hget =>
    cases Option.some.inj hp
    have hmem := List.mem_of_find?_eq_some hget
    refine List.mem_map.mpr ⟨plugin, List.mem_filterMap.mpr ⟨_, hmem, ?_⟩, rfl⟩
    simp [hpull]
  next => cases hp

/-- A move along a pipeline leads to a queue the runner drains. -/
theorem advance_scanned {a : MoveArgs} (ha : Advances svc a) :
    a.destinationQueue ∈ enumerateStageKeys (pullPluginIds svc) := by
  obtain ⟨plugin, fromStage, next, hp, hnext, -, hdest, -⟩ := ha
  rw [hdest]
  refine mem_enumerateStageKeys.mpr ⟨next, plugin.id, rfl, fun hper => mem_pullPluginIds hp ?_⟩
  cases hpat : plugin.deliveryPattern with
  | PULL => rfl
  | PUSH =>
    rw [hpat] at hnext
    cases fromStage <;> cases next <;> first | exact absurd hnext (by decide) | cases hper

theorem home_ready {dto : CreateDeviceMessage} (h : dto.home svc = some q) :
    ∃ node, q = .ready node := by
  obtain ⟨plugin, -, rfl⟩ := Option.map_eq_some_iff.mp h
  exact ⟨_, rfl⟩

@[simp] theorem zremAll_distribute {ps : List QueueKey} :
    (zremAll r ps id).queuesToDistributeFrom = r.queuesToDistributeFrom := by
  unfold zremAll
  induction ps generalizing r with
  | nil => rfl
  | cons p ps ih => exact ih

theorem move_distribute (a : MoveArgs) (r : Redis) :
    (moveMessageBetweenQueues a r).2.queuesToDistributeFrom = r.queuesToDistributeFrom := by
  rcases move_cases a r with ⟨-, he⟩ | ⟨-, -, he⟩ | ⟨-, -, he⟩ | ⟨-, h, k, -, -, he⟩ <;> rw [he]
  · rfl
  · rfl
  · unfold moveClaimed setIndex
    cases a.indexKey <;> rfl

theorem enterRetry_distribute (a : EnterRetryMulti) (r : Redis) :
    (enterRetryMulti a r).2.queuesToDistributeFrom = r.queuesToDistributeFrom := by
  unfold enterRetryMulti releaseConcurrencySlot delStaleIndex
  cases a.dueAt <;> cases a.concurrencyRateLimitKey <;> cases a.staleDeliveryQueueId <;> rfl

theorem cleanup_distribute (m : DeviceMessage) (ps : List QueueKey) (r : Redis) :
    (messageFullCleanup m ps r).queuesToDistributeFrom = r.queuesToDistributeFrom := by
  unfold messageFullCleanup delStaleIndex delCorrelationIndex sremSlot
  cases truthy (some m.deliveryQueueId) <;> cases m.correlationId <;>
    cases m.concurrencyRateLimitKey <;> exact zremAll_distribute

theorem validateAndClean_distribute (k : AdmissionNode) (ids : List MessageId) :
    (validateAndClean k ids r).queuesToDistributeFrom = r.queuesToDistributeFrom := by
  unfold validateAndClean
  induction ids generalizing r with
  | nil => rfl
  | cons i ids ih => exact ih

theorem enqueue_distribute {dto : CreateDeviceMessage} {p : QueueKey} :
    q ∈ (enqueueMulti id dto p r).queuesToDistributeFrom ↔
      q = p ∨ q ∈ r.queuesToDistributeFrom := by
  unfold enqueueMulti
  cases dto.correlationId <;> exact MemberSet.mem_insert

theorem popSource_distribute {a : FetchArgs} {rest : SortedSet ℚ MessageId}
    (hq : q ∈ r.queuesToDistributeFrom)
    (hne : ∃ y, y ∈ (popSource a rest r).queues q) :
    q ∈ (popSource a rest r).queuesToDistributeFrom := by
  unfold popSource sremIfEmpty at *
  split
  next hemp =>
    refine MemberSet.mem_remove.mpr ⟨hq, ?_⟩
    rintro rfl
    rw [if_pos hemp] at hne
    obtain ⟨y, hy⟩ := hne
    simp only [Redis.setQueue, Function.update_self, SortedSet.isEmpty] at hemp
    obtain ⟨k, hk⟩ := SortedSet.mem_iff.mp hy
    simp only [Redis.sremDistribute, Redis.setQueue, Function.update_self] at hk
    rw [List.isEmpty_iff.mp hemp] at hk
    cases hk
  next => exact hq

/-- A pick drops its source from the set only when it leaves it empty. -/
theorem fetch_distribute {a : FetchArgs} (hdest : q ≠ a.destinationQueue)
    (hq : q ∈ r.queuesToDistributeFrom)
    (hne : ∃ y, y ∈ (fetchNextMessageInQueueAndMove a r).2.queues q) :
    q ∈ (fetchNextMessageInQueueAndMove a r).2.queuesToDistributeFrom := by
  unfold fetchNextMessageInQueueAndMove at hne ⊢
  split
  next => exact hq
  next hcap =>
    rw [if_neg hcap] at hne
    cases hp : (r.queues a.sourceQueue).popMin with
    | none =>
      simp only [hp] at hne ⊢
      refine MemberSet.mem_remove.mpr ⟨hq, ?_⟩
      rintro rfl
      obtain ⟨y, hy⟩ := hne
      obtain ⟨k, hk⟩ := SortedSet.mem_iff.mp hy
      change (k, y) ∈ (r.queues a.sourceQueue).entries at hk
      generalize r.queues a.sourceQueue = t at hp hk
      obtain ⟨es, h₁, h₂⟩ := t
      cases es with
      | nil => cases hk
      | cons e es => cases hp
    | some e =>
      obtain ⟨m, rest⟩ := e
      cases hm : r.messages m with
      | none =>
        simp only [hp, hm] at hne ⊢
        exact popSource_distribute hq hne
      | some h =>
        cases ht : a.timeoutAt with
        | none =>
          simp only [hp, hm, ht] at hne ⊢
          exact popSource_distribute hq hne
        | some t =>
          simp only [hp, hm, ht] at hne ⊢
          have hset : (pickClaimed a t m (popSource a rest r)).queuesToDistributeFrom =
              (popSource a rest r).queuesToDistributeFrom := by
            unfold pickClaimed claimConcurrencySlot
            cases a.concurrencyRateLimitKey <;> rfl
          rw [hset]
          refine popSource_distribute hq ?_
          obtain ⟨y, hy⟩ := hne
          refine ⟨y, (mem_pickClaimed.mp hy).resolve_right fun h => hdest h.2⟩

/-- A ready queue with members stays in the set. -/
theorem distribute_exec (hc : Cmd.Proper svc s.enqueued (.redis c)) {node : AdmissionNode}
    (hq : .ready node ∈ s.redis.queuesToDistributeFrom)
    (hne : ∃ y, y ∈ (s.exec c i).2.redis.queues (.ready node)) :
    .ready node ∈ (s.exec c i).2.redis.queuesToDistributeFrom := by
  cases c with
  | enqueueDeviceMessage dto p => exact enqueue_distribute.mpr (.inr hq)
  | moveMessageBetweenQueues a =>
    simp only [Store.exec, RedisCmd.run, move_distribute]
    exact hq
  | fetchNextMessageInQueueAndMove a =>
    obtain ⟨_, _, -, -, hdest, -⟩ := hc
    exact fetch_distribute (by simp [hdest]) hq hne
  | enterRetry a =>
    simp only [Store.exec, RedisCmd.run, enterRetry_distribute]
    exact hq
  | messageFullCleanup m ps =>
    simp only [Store.exec, RedisCmd.run, cleanup_distribute]
    exact hq
  | saddDistribute p => exact MemberSet.mem_insert.mpr (.inr hq)
  | zaddXx p score x => cases score <;> exact hq
  | lockQueueForTimeMs p ms =>
    simp only [Store.exec, RedisCmd.run, lockQueueForTimeMs]
    split <;> exact hq
  | sremRateLimit k ids =>
    simp only [Store.exec, RedisCmd.run, validateAndClean_distribute]
    exact hq
  | _ => exact hq

/-- The requeue of a stored message from a queue. -/
structure RequeuedFrom (svc : Service) (s : Store) (c : RedisCmd) (id : MessageId) (q : QueueKey)
    (node : AdmissionNode) : Prop where
  command : ∃ a, c = .moveMessageBetweenQueues a ∧ a.messageId = id ∧ a.sourceQueue = q ∧
    a.destinationQueue = .ready node
  member : id ∈ s.redis.queues q
  stored : s.redis.messages id ≠ none

/-- Where a member of a queue is after a command, if its hash is: there, in a queue
the runner drains, claimed, or requeued. -/
theorem member_exec (hc : Cmd.Proper svc s.enqueued (.redis c)) (hq : id ∈ s.redis.queues q)
    (hlive : (s.exec c i).2.redis.messages id ≠ none) :
    id ∈ (s.exec c i).2.redis.queues q ∨
      (∃ p ∈ enumerateStageKeys (pullPluginIds svc), id ∈ (s.exec c i).2.redis.queues p) ∨
      c = .removeMessageFromQueue q id ∨
      ∃ node, RequeuedFrom svc s c id q node ∧ id ∈ (s.exec c i).2.redis.queues (.ready node) := by
  cases c with
  | enqueueDeviceMessage dto p => exact .inl (mem_enqueue.mpr (.inl hq))
  | moveMessageBetweenQueues a =>
    simp only [Store.exec, RedisCmd.run] at hlive ⊢
    by_cases hx : id = a.messageId ∧ q = a.sourceQueue
    · obtain ⟨rfl, rfl⟩ := hx
      rcases move_cases a s.redis with ⟨hn, -⟩ | ⟨-, hm, he⟩ | ⟨-, hk, -⟩ | ⟨-, h, k, hh, -, he⟩
      · exact absurd hq hn
      · rw [he] at hlive
        exact absurd hm hlive
      · rcases hc with ⟨_, _, _, -, -, -, -, -, hscore⟩ | ⟨_, -, -, -, -, hscore⟩
        · exact absurd hk hscore
        · rw [hscore] at hk
          cases hk
      · rw [he]
        have hmem : a.messageId ∈ (moveClaimed a k (s.redis.zrem a.sourceQueue a.messageId)).queues
            a.destinationQueue := mem_moveClaimed.mpr (.inr ⟨rfl, rfl⟩)
        rcases hc with ha | ⟨dto, -, -, hhome, -⟩
        · exact .inr (.inl ⟨_, advance_scanned ha, hmem⟩)
        · obtain ⟨node, hnode⟩ := home_ready hhome
          rw [hnode] at hmem
          exact .inr (.inr (.inr ⟨node, ⟨⟨a, rfl, rfl, rfl, hnode⟩, hq, by simp [hh]⟩, hmem⟩))
    · have hkeep : id ∈ (s.redis.zrem a.sourceQueue a.messageId).queues q :=
        mem_zrem.mpr ⟨hq, fun e e' => hx ⟨e, e'⟩⟩
      left
      rcases move_cases a s.redis with ⟨-, he⟩ | ⟨-, -, he⟩ | ⟨-, -, he⟩ | ⟨-, h, k, -, -, he⟩ <;>
        rw [he]
      · exact hq
      · exact hkeep
      · exact hkeep
      · exact mem_moveClaimed.mpr (.inl hkeep)
  | fetchNextMessageInQueueAndMove a =>
    simp only [Store.exec, RedisCmd.run] at hlive ⊢
    obtain ⟨_, _, -, -, hdest, -, htime, -⟩ := hc
    rcases fetch_cases a s.redis with he | he | ⟨m, rest, hp, ⟨hm, he⟩ | ⟨ht, -⟩ | ⟨h, t, -, -, he⟩⟩
    · exact .inl (by rw [he]; exact hq)
    · exact .inl (by rw [he]; exact hq)
    · rw [he] at hlive ⊢
      refine .inl ((mem_popSource hp).mpr ⟨hq, ?_⟩)
      rintro rfl
      rw [popSource_messages] at hlive
      exact absurd hm hlive
    · exact absurd ht htime
    · rw [he]
      by_cases hx : id = m ∧ q = a.sourceQueue
      · exact .inr (.inl ⟨.ns, ns_scanned, mem_pickClaimed.mpr (.inr ⟨hx.1, hdest.symm⟩)⟩)
      · exact .inl (mem_pickClaimed.mpr (.inl ((mem_popSource hp).mpr
          ⟨hq, fun e e' => hx ⟨e, e'⟩⟩)))
  | enterRetry a =>
    by_cases hx : id = a.messageId ∧ q = a.fromKey
    · exact .inr (.inl ⟨.retry, retry_scanned, mem_enterRetry_queues.mpr (.inr ⟨hx.1, rfl, hc.1⟩)⟩)
    · exact .inl (mem_enterRetry_queues.mpr (.inl ⟨hq, fun e e' => hx ⟨e, e'⟩⟩))
  | removeMessageFromQueue p x =>
    by_cases hx : id = x ∧ q = p
    · obtain ⟨rfl, rfl⟩ := hx
      exact .inr (.inr (.inl rfl))
    · exact .inl (mem_zrem.mpr ⟨hq, fun e e' => hx ⟨e, e'⟩⟩)
  | messageFullCleanup m ps =>
    refine .inl (mem_cleanup.mpr ⟨hq, ?_⟩)
    rintro rfl
    simp [Store.exec, RedisCmd.run, cleanup_messages] at hlive
  | zaddXx p score x =>
    cases score with
    | none => exact .inl hq
    | some k =>
      refine .inl ?_
      simp only [Store.exec, RedisCmd.run, Redis.setQueue]
      rw [mem_update]
      by_cases hp : q = p
      · exact .inl ⟨hp, SortedSet.mem_rescore.mpr (hp ▸ hq)⟩
      · exact .inr ⟨hp, hq⟩
  | lockQueueForTimeMs p ms =>
    left
    simp only [Store.exec, RedisCmd.run, lockQueueForTimeMs]
    split <;> exact hq
  | sremRateLimit k ids =>
    left
    simp only [Store.exec, RedisCmd.run, validateAndClean_queues]
    exact hq
  | _ => exact .inl hq

/-- A hash that comes to be stored is found. -/
theorem revived_exec (hc : Cmd.Proper svc s.enqueued (.redis c)) (hnone : s.redis.messages id = none)
    (hlive : (s.exec c i).2.redis.messages id ≠ none) : Finds svc (s.exec c i).2 id := by
  obtain ⟨h, hh⟩ := Option.ne_none_iff_exists'.mp hlive
  have hw := exec_hashWrite s c i
  generalize hf : (s.exec c i).2.redis.messages = f at hw hh
  cases hw with
  | keep => exact absurd hh (by simp [hnone])
  | @enqueue dto p =>
    rcases update_some_cases hh with ⟨rfl, -⟩ | ⟨-, hh⟩
    · obtain ⟨node, rfl⟩ := home_ready hc
      exact ⟨.ready node, mem_enqueue.mpr (.inr ⟨rfl, rfl⟩),
        .inr ⟨⟨node, rfl⟩, enqueue_distribute.mpr (.inl rfl)⟩⟩
    · exact absurd hh (by simp [hnone])
  | @move a h' hh' =>
    rcases update_some_cases hh with ⟨rfl, -⟩ | ⟨-, hh⟩
    · exact absurd hh' (by simp [hnone])
    · exact absurd hh (by simp [hnone])
  | @pick a m h' hh' =>
    rcases update_some_cases hh with ⟨rfl, -⟩ | ⟨-, hh⟩
    · exact absurd hh' (by simp [hnone])
    · exact absurd hh (by simp [hnone])
  | @retry a =>
    rcases update_some_cases hh with ⟨rfl, -⟩ | ⟨-, hh⟩
    · exact ⟨.retry, mem_enterRetry_queues.mpr (.inr ⟨rfl, rfl, hc.1⟩), .inl retry_scanned⟩
    · exact absurd hh (by simp [hnone])
  | @purge m ps => exact absurd (update_none_cases hh).2 (by simp [hnone])

end DeviceMessaging
