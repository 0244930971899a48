import DeviceMessaging.Handlers
import DeviceMessaging.RedisMessages
import DeviceMessaging.RedisQueues

namespace DeviceMessaging

open Effect

variable {s : Store} {c : RedisCmd} {i x : MessageId} {q : QueueKey}

/-- How a command puts a message into a queue. -/
inductive Enters (s : Store) (i x : MessageId) (q : QueueKey) : RedisCmd → Prop
  | enqueued {dto : CreateDeviceMessage} (hx : x = i) :
    Enters s i x q (.enqueueDeviceMessage dto q)
  | moved {a : MoveArgs} (hx : x = a.messageId) (hq : q = a.destinationQueue)
    (hs : x ∈ s.redis.queues a.sourceQueue) : Enters s i x q (.moveMessageBetweenQueues a)
  | picked {a : FetchArgs} (hq : q = a.destinationQueue) (hs : x ∈ s.redis.queues a.sourceQueue) :
    Enters s i x q (.fetchNextMessageInQueueAndMove a)
  | retried {a : EnterRetryMulti} (hx : x = a.messageId) (hq : q = .retry) :
    Enters s i x q (.enterRetry a)

/-- How a command takes a message out of a queue. -/
inductive TakenOut (x : MessageId) (q : QueueKey) : RedisCmd → Prop
  | moved {a : MoveArgs} (hx : x = a.messageId) (hq : q = a.sourceQueue) :
    TakenOut x q (.moveMessageBetweenQueues a)
  | picked {a : FetchArgs} (hq : q = a.sourceQueue) :
    TakenOut x q (.fetchNextMessageInQueueAndMove a)
  | removed : TakenOut x q (.removeMessageFromQueue q x)
  | retried {a : EnterRetryMulti} (hx : x = a.messageId) : TakenOut x q (.enterRetry a)
  | purged {m : DeviceMessage} {qs : List QueueKey} (hx : x = m.id) :
    TakenOut x q (.messageFullCleanup m qs)

theorem queues_enter (hx : x ∈ (s.exec c i).2.redis.queues q) :
    x ∈ s.redis.queues q ∨ Enters s i x q c := by
  cases c with
  | enqueueDeviceMessage dto p =>
    rcases mem_enqueue.mp hx with hx | ⟨rfl, rfl⟩
    · exact .inl hx
    · exact .inr (.enqueued rfl)
  | moveMessageBetweenQueues a =>
    rcases mem_move hx with hx | ⟨rfl, rfl, hs⟩
    · exact .inl hx.1
    · exact .inr (.moved rfl rfl hs)
  | fetchNextMessageInQueueAndMove a =>
    change x ∈ (fetchNextMessageInQueueAndMove a s.redis).2.queues q at hx
    rcases mem_fetch a s.redis with he | ⟨m, hm, hall⟩
    · exact .inl (he ▸ hx)
    · rcases hall x q hx with hx | ⟨rfl, rfl⟩
      · exact .inl hx.1
      · exact .inr (.picked rfl hm)
  | removeMessageFromQueue p m => exact .inl (mem_zrem.mp hx).1
  | enterRetry a =>
    rcases mem_enterRetry hx with hx | ⟨rfl, rfl⟩
    · exact .inl hx.1
    · exact .inr (.retried rfl rfl)
  | zaddXx p score m =>
    cases score with
    | none => exact .inl hx
    | some k =>
      change x ∈ (s.redis.setQueue p ((s.redis.queues p).rescore m k)).queues q at hx
      rw [Redis.setQueue, mem_update] at hx
      by_cases hq : q = p
      · subst hq
        exact .inl (by simpa using hx)
      · exact .inl (by simpa [hq] using hx)
  | messageFullCleanup m qs => exact .inl (mem_cleanup.mp hx).1
  | lockQueueForTimeMs p ms =>
    change x ∈ (lockQueueForTimeMs p ms s.redis).2.queues q at hx
    obtain ⟨locks, he⟩ := lockQueue_locks p ms s.redis
    rw [he] at hx
    exact .inl hx
  | sremRateLimit k ids =>
    change x ∈ (validateAndClean k ids s.redis).queues q at hx
    rw [validateAndClean_queues] at hx
    exact .inl hx
  | _ => exact .inl hx

theorem queues_leave (hx : x ∈ s.redis.queues q) :
    x ∈ (s.exec c i).2.redis.queues q ∨ TakenOut x q c := by
  cases c with
  | enqueueDeviceMessage dto p => exact .inl (mem_enqueue.mpr (.inl hx))
  | moveMessageBetweenQueues a =>
    by_cases hxa : x = a.messageId ∧ q = a.sourceQueue
    · exact .inr (.moved hxa.1 hxa.2)
    · have hleft : x ∈ (s.redis.zrem a.sourceQueue a.messageId).queues q :=
        mem_zrem.mpr ⟨hx, fun he hq => hxa ⟨he, hq⟩⟩
      refine .inl ?_
      simp only [Store.exec, RedisCmd.run]
      rcases move_cases a s.redis with ⟨-, he⟩ | ⟨-, -, he⟩ | ⟨-, -, he⟩ | ⟨-, h, k, -, -, he⟩ <;>
        rw [he]
      · exact hx
      · exact hleft
      · exact hleft
      · exact mem_moveClaimed.mpr (.inl hleft)
  | fetchNextMessageInQueueAndMove a =>
    by_cases hq : q = a.sourceQueue
    · exact .inr (.picked hq)
    · refine .inl ?_
      simp only [Store.exec, RedisCmd.run]
      rcases fetch_cases a s.redis with he | he | ⟨m, rest, hp, h⟩
      · rwa [he]
      · rw [he]
        exact hx
      · have hleft : x ∈ (popSource a rest s.redis).queues q :=
          (mem_popSource hp).mpr ⟨hx, fun _ => hq⟩
        rcases h with ⟨-, he⟩ | ⟨-, he⟩ | ⟨h, t, -, -, he⟩ <;> rw [he]
        · exact hleft
        · exact hleft
        · exact mem_pickClaimed.mpr (.inl hleft)
  | removeMessageFromQueue p m =>
    by_cases hxm : x = m ∧ q = p
    · obtain ⟨rfl, rfl⟩ := hxm
      exact .inr .removed
    · exact .inl (mem_zrem.mpr ⟨hx, fun he hq => hxm ⟨he, hq⟩⟩)
  | enterRetry a =>
    by_cases hxa : x = a.messageId
    · exact .inr (.retried hxa)
    · exact .inl (mem_enterRetry_queues.mpr (.inl ⟨hx, fun he => absurd he hxa⟩))
  | zaddXx p score m =>
    refine .inl ?_
    cases score with
    | none => exact hx
    | some k =>
      change x ∈ (s.redis.setQueue p ((s.redis.queues p).rescore m k)).queues q
      rw [Redis.setQueue, mem_update]
      by_cases hq : q = p
      · subst hq
        exact .inl ⟨rfl, SortedSet.mem_rescore.mpr hx⟩
      · exact .inr ⟨hq, hx⟩
  | messageFullCleanup m qs =>
    by_cases hxm : x = m.id
    · exact .inr (.purged hxm)
    · exact .inl (mem_cleanup.mpr ⟨hx, fun he => absurd he hxm⟩)
  | lockQueueForTimeMs p ms =>
    refine .inl ?_
    change x ∈ (lockQueueForTimeMs p ms s.redis).2.queues q
    obtain ⟨locks, he⟩ := lockQueue_locks p ms s.redis
    rw [he]
    exact hx
  | sremRateLimit k ids =>
    refine .inl ?_
    change x ∈ (validateAndClean k ids s.redis).queues q
    rw [validateAndClean_queues]
    exact hx
  | _ => exact .inl hx

/-- The members of the queues were named by writes. -/
def Store.QueuesNamed (s : Store) : Prop :=
  ∀ x q, x ∈ s.redis.queues q → x ∈ s.named

theorem queuesNamed_exec (hs : s.QueuesNamed) : (s.exec c i).2.QueuesNamed := by
  intro x q hx
  have hold := named_exec s c i x
  rcases queues_enter hx with hx | hx
  · exact hold (hs x q hx)
  · cases hx with
    | enqueued he => exact he ▸ List.mem_cons_self
    | moved he _ _ => exact he ▸ List.mem_cons_self
    | picked _ hs' => exact hold (hs x _ hs')
    | retried he _ => exact he ▸ List.mem_cons_self

theorem queuesNamed_next {svc : Service} {weather : Weather} {x y : Process}
    {a : Choice Handler Oracle Disturbance} (hs : x.world.store.QueuesNamed)
    (hy : (engine svc weather).next a x = some y) : y.world.store.QueuesNamed := by
  rcases store_next hy with he | ⟨i, o, h, c, -, -, -, he⟩ | ⟨d, -, he⟩ <;> rw [he]
  · exact hs
  · exact queuesNamed_exec hs
  · cases d <;> exact hs

/-- A named message that no queue has is put into one by a retry only. -/
theorem queues_empty (hf : c.Fresh i s) (hn : x ∈ s.named) (hx : ∀ q, x ∉ s.redis.queues q)
    (hr : ∀ a, c = .enterRetry a → a.messageId ≠ x) :
    ∀ q, x ∉ (s.exec c i).2.redis.queues q := by
  intro q hq
  rcases queues_enter hq with hq | hq
  · exact hx q hq
  · cases hq with
    | enqueued he => exact (hf rfl).2 (he ▸ hn)
    | moved _ _ hs => exact hx _ hs
    | picked _ hs => exact hx _ hs
    | retried he _ => exact hr _ rfl he.symm

/-- A pick that hands over a message has taken the first one of its source to its destination. -/
theorem fetch_reply_moved {a : FetchArgs} {r : Redis} {h : MessageHash}
    (hv : (fetchNextMessageInQueueAndMove a r).1 = .ok (some (x, h))) :
    (∃ rest, (r.queues a.sourceQueue).popMin = some (x, rest)) ∧
      ∀ q, x ∈ (fetchNextMessageInQueueAndMove a r).2.queues q ↔
        (x ∈ r.queues q ∧ q ≠ a.sourceQueue) ∨ q = a.destinationQueue := by
  rcases fetch_cases a r with he | he | ⟨m, rest, hp, ⟨-, he⟩ | ⟨-, he⟩ | ⟨g, t, -, -, he⟩⟩ <;>
    rw [he] at hv ⊢
  · cases hv
  · cases hv
  · cases hv
  · cases hv
  · simp only [Except.ok.injEq] at hv
    obtain ⟨h', -, hm⟩ := Option.map_eq_some_iff.mp hv
    cases hm
    refine ⟨⟨rest, hp⟩, fun q => ?_⟩
    rw [mem_pickClaimed, mem_popSource hp]
    simp

end DeviceMessaging
