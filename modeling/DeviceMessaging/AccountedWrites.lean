import DeviceMessaging.Accounted

namespace DeviceMessaging

variable {svc : Service} {settled : DeliveryPattern → Prop} {ledger : List Issued}
  {w : World} {m id : MessageId} {h : MessageHash} {a : Attempt}

def Attempt.moved (a : Attempt) (status : DeliveryStatus) : Attempt :=
  { a with status := status }

def Attempt.retried (a : Attempt) : Attempt :=
  { a with status := .TO_RETRY, count := a.count + 1 }

@[simp] theorem moved_readyQueue (status : DeliveryStatus) :
    (a.moved status).readyQueue = a.readyQueue :=
  rfl

theorem station_queued (hs : a.status = .QUEUED) : a.station = some a.readyQueue := by
  simp [Attempt.station, stationKey, hs]

theorem station_of_stage {stage : StageName} (hs : a.status ≠ .QUEUED)
    (hst : stageForStatus a.status a.plugin.deliveryPattern = some stage) :
    a.station = some (stageKeyFor stage a.plugin.id) := by
  simp [Attempt.station, stationKey, hs, hst]

theorem station_retried : a.retried.station = some .retry := by
  simp [Attempt.retried, Attempt.station, stationKey, stageForStatus, stageKeyFor, stages]

/-- A move either brings the id the vendor gave to the attempt, together with its
index, or leaves both as they are. -/
inductive MoveArgs.Carries (ledger : List Issued) (a : Attempt) (args : MoveArgs) : Prop
  | new (x : String) (hx : x ≠ "") (hd : args.deliveryQueueId = x) (hk : args.indexKey = some x)
    (hl : ⟨x, a.plugin.id, args.messageId, some a.count⟩ ∈ ledger)
    (hi : args.deliveryStatus.IsIndexed) (hn : ¬ a.status.IsIndexed)
  | none (hd : args.deliveryQueueId = "") (hk : args.indexKey = none)
    (hi : args.deliveryStatus.IsIndexed ↔ a.status.IsIndexed)

theorem MoveArgs.Carries.not_exclusive {args : MoveArgs} (hc : args.Carries ledger a)
    {x : MessageId} (hx : x ≠ args.messageId) :
    ∀ y, args.indexKey = some y → ¬ Exclusive ledger y x := by
  intro y hy
  cases hc with
  | new z _ _ hk hl =>
    cases hk.symm.trans hy
    exact Issued.not_exclusive hl hx
  | none _ hk => cases hk.symm.trans hy

theorem hash_after_move (id : MessageId) {args : MoveArgs} {score : ℚ}
    (hh : w.store.redis.messages args.messageId = some h)
    (hq : args.messageId ∈ w.store.redis.queues args.sourceQueue)
    (hscore : args.destinationScore = some score) :
    (RedisCmd.run (.moveMessageBetweenQueues args) id w.store.redis) =
      (.ok true, moveClaimed args score (w.store.redis.zrem args.sourceQueue args.messageId)) := by
  simp [RedisCmd.run, moveMessageBetweenQueues, hq, hh, hscore]

theorem Standing.moved (hst : Standing svc h a) (args : MoveArgs)
    (hstation : (a.moved args.deliveryStatus).station ≠ none)
    (hfree : args.deliveryStatus = .QUEUED ∨ args.deliveryStatus = .TO_RETRY →
      h.concurrencyRateLimitKey = none) :
    Standing svc (movedHash args h) (a.moved args.deliveryStatus) := by
  unfold movedHash setDelivery
  split <;>
    exact ⟨hst.holds.evolve rfl (.inr (by simp)) (.inl rfl), hst.owned, rfl, hst.count, hstation,
      hfree⟩

/-- A committed move takes the message from the station of its attempt to the
next one, together with its status. -/
theorem Places.moved {args : MoveArgs} {score : ℚ}
    (hp : Places settled ledger w args.messageId h a)
    (hh : w.store.redis.messages args.messageId = some h)
    (hq : args.messageId ∈ w.store.redis.queues args.sourceQueue)
    (hscore : args.destinationScore = some score) (hsend : w.outstanding args.messageId = [])
    (hstation : (a.moved args.deliveryStatus).station = some args.destinationQueue)
    (hcarry : args.Carries ledger a) :
    Places settled ledger (w.after (.moveMessageBetweenQueues args) id) args.messageId
      (movedHash args h) (a.moved args.deliveryStatus) := by
  have hrun := hash_after_move id hh hq hscore
  have hr : (w.after (.moveMessageBetweenQueues args) id).store.redis =
      moveClaimed args score (w.store.redis.zrem args.sourceQueue args.messageId) :=
    congrArg Prod.snd hrun
  have hold : ∀ q, args.messageId ∈ w.store.redis.queues q → q = args.sourceQueue := by
    intro q hq'
    exact Option.some.inj ((hp.queues q hq').symm.trans (hp.queues _ hq))
  have hext : ∀ y, (w.after (.moveMessageBetweenQueues args) id).store.redis.externals y =
      some args.messageId ↔ args.indexKey = some y ∨
        (args.indexKey ≠ some y ∧ w.store.redis.externals y = some args.messageId) := by
    intro y
    rw [hr, moveClaimed_externals]
    simp
  refine ⟨fun q hm => ?_, fun _ q hm => ?_, fun k hk => ?_, fun y hy => ?_, fun hi => ?_,
    fun y hy => ?_, fun y hy => ?_, hp.once, fun t ht => ?_, named_exec _ _ _ _ hp.named,
    fun hm => hp.unpurged ((purged_exec hm).resolve_right nofun), hp.id_ne⟩
  · rw [hr, mem_moveClaimed, mem_zrem] at hm
    rcases hm with ⟨hm, hne⟩ | ⟨-, rfl⟩
    · exact absurd (hold q hm) (hne rfl)
    · exact hstation
  · rw [hr, mem_moveClaimed]
    exact .inr ⟨rfl, Option.some.inj (hm.symm.trans hstation)⟩
  · rw [hr, moveClaimed_rateLimits] at hk
    have hkey : (movedHash args h).concurrencyRateLimitKey = h.concurrencyRateLimitKey := by
      unfold movedHash setDelivery
      split <;> rfl
    exact hkey.trans (hp.rateLimits k hk)
  · cases hcarry with
    | new x hx hd hk hl hi hn =>
      rcases (hext y).mp hy with hy | ⟨-, hy⟩
      · cases hk.symm.trans hy
        exact ⟨by simp [movedHash, setDelivery, hd, hx, truthy_some hx], hi, hl⟩
      · exact absurd (hp.externals y hy).2.1 hn
    | none hd hk hi =>
      rcases (hext y).mp hy with hy | ⟨-, hy⟩
      · cases hk.symm.trans hy
      · obtain ⟨hx, hs, hl⟩ := hp.externals y hy
        exact ⟨by simpa [movedHash, setDelivery, hd] using hx, hi.mpr hs, hl⟩
  · cases hcarry with
    | new x hx hd hk hl =>
      refine ⟨x, by simp [movedHash, setDelivery, hd, hx, truthy_some hx], hl, fun _ => ?_⟩
      exact (hext x).mpr (.inl hk)
    | none hd hk hi' =>
      obtain ⟨y, hx, hl, hy⟩ := hp.index (hi'.mp hi)
      refine ⟨y, by simpa [movedHash, setDelivery, hd] using hx, hl, fun he => ?_⟩
      exact (hext y).mpr (.inr ⟨by simp [hk], hy he⟩)
  · cases hcarry with
    | new x hx hd hk hl =>
      simp only [movedHash, setDelivery, hd, hx, ↓reduceIte, truthy_some hx,
        Option.some.injEq] at hy
      exact ⟨_, hl, hy, rfl⟩
    | none hd => exact hp.issued y (by simpa [movedHash, setDelivery, hd] using hy)
  · rw [hr, moveClaimed_correlations] at hy
    exact hp.correlations y hy
  · have ht : t ∈ w.outstanding args.messageId := ht
    simp [hsend] at ht

theorem Standing.retried (hst : Standing svc h a) {args : EnterRetryMulti}
    (hcount : args.retryCount = some (a.count + 1))
    (hkey : args.concurrencyRateLimitKey = h.concurrencyRateLimitKey) :
    Standing svc (retryHash args h) a.retried where
  holds := hst.holds.evolve rfl (.inr (by simp [retryHash, setRetry]))
    (.inr (by simp [retryHash, setRetry]))
  owned := hst.owned
  status := rfl
  count := by simp [retryHash, setRetry, hcount, Attempt.retried]
  station := by simp [station_retried]
  free _ := by
    simp only [retryHash, hkey]
    split
    next hn => exact hn
    next => rfl

/-- The retry transaction takes the message from the station of its attempt to the
retry stage, and takes its index and its slot along. -/
theorem Places.retried {args : EnterRetryMulti} {score : ℚ}
    (hp : Places settled ledger w args.messageId h a)
    (hq : args.messageId ∈ w.store.redis.queues args.fromKey)
    (hdue : args.dueAt = some score) (hsend : w.outstanding args.messageId = [])
    (hstale : args.staleDeliveryQueueId = truthy h.deliveryQueueId)
    (hkey : args.concurrencyRateLimitKey = h.concurrencyRateLimitKey) :
    Places settled ledger (w.after (.enterRetry args) id) args.messageId (retryHash args h)
      a.retried := by
  have hr : (w.after (.enterRetry args) id).store.redis =
      (enterRetryMulti args w.store.redis).2 := rfl
  refine ⟨fun q hm => ?_, fun _ q hm => ?_, fun k hk => ?_, fun y hy => ?_, fun hi => ?_,
    fun y hy => ?_, fun y hy => ?_, hp.once, fun t ht => ?_, named_exec _ _ _ _ hp.named,
    fun hm => hp.unpurged ((purged_exec hm).resolve_right nofun), hp.id_ne⟩
  · rw [hr, mem_enterRetry_queues] at hm
    rcases hm with ⟨hm, hne⟩ | ⟨-, rfl, -⟩
    · exact absurd (Option.some.inj ((hp.queues q hm).symm.trans (hp.queues _ hq))) (hne rfl)
    · exact station_retried
  · rw [hr, mem_enterRetry_queues]
    refine .inr ⟨rfl, ?_, by simp [hdue]⟩
    exact Option.some.inj (hm.symm.trans station_retried)
  · rw [hr, mem_enterRetry_rateLimits] at hk
    exact absurd (hkey.trans (hp.rateLimits k hk.1)) (hk.2 rfl)
  · rw [hr, enterRetry_externals] at hy
    exact absurd (hstale.trans (hp.externals y hy.2).1) hy.1
  · exact absurd (show DeliveryStatus.IsIndexed .TO_RETRY from hi) (by decide)
  · cases hy
  · rw [hr, enterRetry_correlations] at hy
    exact hp.correlations y hy
  · have ht : t ∈ w.outstanding args.messageId := ht
    simp [hsend] at ht

theorem Standing.picked (hst : Standing svc h a) {args : FetchArgs}
    (hs : args.newStatus = .SENT_TO_NS) :
    Standing svc (pickedHash args h) (a.moved .SENT_TO_NS) where
  holds := hst.holds.evolve rfl (.inr (by simp [pickedHash])) (.inl rfl)
  owned := hst.owned
  status := congrArg some hs
  count := hst.count
  station := by simp [Attempt.station, Attempt.moved, stationKey, stageForStatus]
  free h := by rcases h with h | h <;> cases h

/-- A committed pick takes a queued message to the `ns` stage, and into its slot. -/
theorem Places.picked {args : FetchArgs} {rest : SortedSet ℚ MessageId} {score : ℚ}
    (hp : Places settled ledger w m h a) (hst : Standing svc h a) (hqueued : a.status = .QUEUED)
    (hpop : (w.store.redis.queues args.sourceQueue).popMin = some (m, rest))
    (hdest : args.destinationQueue = .ns) :
    Places settled ledger
      { w with store := { w.store with
        redis := pickClaimed args score m (popSource args rest w.store.redis) } } m
      (pickedHash args h) (a.moved .SENT_TO_NS) := by
  have hns : (a.moved .SENT_TO_NS).station = some .ns := by
    simp [Attempt.station, Attempt.moved, stationKey, stageForStatus, stageKeyFor, stages]
  have hq : m ∈ w.store.redis.queues args.sourceQueue := (SortedSet.mem_popMin hpop).mpr (.inl rfl)
  have hsend : w.outstanding m = [] := hp.no_send (by rw [hqueued]; decide)
  have hnoindex : ∀ y, w.store.redis.externals y ≠ some m := by
    intro y hy
    have hi := (hp.externals y hy).2.1
    exact absurd (hqueued ▸ hi) (by decide)
  refine ⟨fun q hm => ?_, fun _ q hm => ?_, fun k hk => ?_, fun y hy => ?_, fun hi => ?_,
    hp.issued, fun y hy => ?_, hp.once, fun t ht => ?_, hp.named, hp.unpurged, hp.id_ne⟩
  · rcases mem_pickClaimed.mp hm with hm | ⟨-, rfl⟩
    · obtain ⟨hm, hne⟩ := (mem_popSource hpop).mp hm
      exact absurd (Option.some.inj ((hp.queues q hm).symm.trans (hp.queues _ hq))) (hne rfl)
    · rw [hns, hdest]
  · refine mem_pickClaimed.mpr (.inr ⟨rfl, ?_⟩)
    rw [hdest]
    exact Option.some.inj (hm.symm.trans hns)
  · rcases mem_pickClaimed_rateLimits.mp hk with ⟨-, hk⟩ | hk
    · simp [pickedHash, hk]
    · rw [popSource_indexes.rateLimits] at hk
      have hfree := hst.free (.inl hqueued)
      cases hfree.symm.trans (hp.rateLimits k hk)
  · simp only [pickClaimed_externals, popSource_indexes.externals] at hy
    exact absurd hy (hnoindex y)
  · exact absurd (show DeliveryStatus.IsIndexed .SENT_TO_NS from hi) (by decide)
  · simp only [pickClaimed_correlations, popSource_indexes.correlations] at hy
    exact hp.correlations y hy
  · have ht : t ∈ w.outstanding m := ht
    simp [hsend] at ht

/-- A cleanup made from the loaded message, over the queue it waits in, leaves no
trace of it. -/
theorem Places.purged {message : DeviceMessage} {qs : List QueueKey}
    (hp : Places settled ledger w m h a) (hl : Snapshot m h a message)
    (hqs : ∀ q, a.station = some q → q ∈ qs) :
    (w.after (.messageFullCleanup message qs) id).store.redis.NoReference m := by
  have hr : (w.after (.messageFullCleanup message qs) id).store.redis =
      messageFullCleanup message qs w.store.redis := rfl
  have hid : m = message.id := hl.id.symm
  refine ⟨?_, fun q hq => ?_, fun k hk => ?_, fun y hy => ?_, fun y hy => ?_⟩
  · rw [hr, cleanup_messages, hid, Function.update_self]
  · rw [hr, mem_cleanup] at hq
    exact hq.2 hid (hqs q (hp.queues q hq.1))
  · rw [hr, mem_cleanup_rateLimits] at hk
    exact hk.2 hid (hl.slot.trans (hp.rateLimits k hk.1))
  · rw [hr, cleanup_externals] at hy
    refine hy.1 ?_
    rw [hl.deliveryQueueId, truthy_getD]
    exact (hp.externals y hy.2).1
  · rw [hr, cleanup_correlations] at hy
    exact hy.1 (hl.correlation.trans (hp.correlations y hy.2))

/-- Taking a message out of a queue breaks no account unless it is to stay there. -/
theorem Places.zrem {settled' : DeliveryPattern → Prop} {q : QueueKey}
    (hp : Places settled ledger w m h a) (hn : ¬ settled' a.plugin.deliveryPattern) :
    Places settled' ledger (w.after (.removeMessageFromQueue q m) "") m h a :=
  { hp with
    queues := fun p hm => hp.queues p (mem_zrem.mp hm).1
    home := fun hset => absurd hset hn
    named := named_exec _ _ _ _ hp.named
    unpurged := fun hm => hp.unpurged ((purged_exec hm).resolve_right nofun) }

def Attempt.first (dto : CreateDeviceMessage) (plugin : DeliveryPlugin) : Attempt :=
  ⟨dto, plugin, .QUEUED, 0⟩

theorem Standing.enqueued {dto : CreateDeviceMessage} {plugin : DeliveryPlugin}
    (hp : svc.registry.delivery dto.pluginId = some plugin) :
    Standing svc (serializeCreateDeviceMessage dto) (.first dto plugin) where
  holds := holdsCreate_serialize dto
  owned := hp
  status := rfl
  count := rfl
  station := by simp [Attempt.station, Attempt.first, stationKey]
  free _ := rfl

/-- A new message waits in the ready queue of its plugin. -/
theorem Places.enqueued {dto : CreateDeviceMessage} {plugin : DeliveryPlugin}
    (hn : Gone w id) (hnew : id ∉ w.store.named) (hid : id ≠ "") :
    Places settled ledger
      (w.after (.enqueueDeviceMessage dto (Attempt.first dto plugin).readyQueue) id) id
      (serializeCreateDeviceMessage dto) (.first dto plugin) := by
  have hr : (w.after (.enqueueDeviceMessage dto (Attempt.first dto plugin).readyQueue) id).store.redis =
      enqueueMulti id dto (Attempt.first dto plugin).readyQueue w.store.redis := rfl
  have hstation : (Attempt.first dto plugin).station =
      some (Attempt.first dto plugin).readyQueue := station_queued rfl
  have hnone : ∀ t, t ∉ w.outstanding id := by
    intro t
    rw [hn.idle]
    exact List.not_mem_nil
  refine ⟨fun q hm => ?_, fun _ q hm => ?_, fun k hk => ?_, fun y hy => ?_, fun hi => ?_, nofun,
    fun y hy => ?_, ?_, fun t ht => absurd ht (hnone t), List.mem_cons_self, fun hm => ?_, hid⟩
  · rw [hr, mem_enqueue] at hm
    rcases hm with hm | ⟨-, rfl⟩
    · exact absurd hm (hn.queues q)
    · exact hstation
  · rw [hr, mem_enqueue]
    exact .inr ⟨rfl, Option.some.inj (hm.symm.trans hstation)⟩
  · rw [hr, enqueue_rateLimits] at hk
    exact absurd hk (hn.rateLimits k)
  · rw [hr, enqueue_externals] at hy
    exact absurd hy (hn.externals y)
  · exact absurd (show DeliveryStatus.IsIndexed .QUEUED from hi) (by decide)
  · rw [hr, enqueue_correlations] at hy
    rcases hy with ⟨hy, -⟩ | ⟨-, hy⟩
    · exact hy
    · exact absurd hy (hn.correlations y)
  · have hlen : (w.outstanding id).length ≤ 1 := by simp [hn.idle]
    exact hlen
  · exact hnew (hn.named ((purged_exec hm).resolve_right nofun))

end DeviceMessaging
