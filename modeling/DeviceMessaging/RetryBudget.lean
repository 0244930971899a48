import DeviceMessaging.Admission
import DeviceMessaging.Tally

namespace DeviceMessaging

/-- The hash stands at its `n`-th retry: so many failures are recorded, and none
of them as the last. -/
structure MessageHash.AtRetry (maxRetries : Nat) (hash : MessageHash) (n : Nat)
    (history : List FailureReason) : Prop where
  count : hash.retryCount.getD (.text 0) = .text n
  recorded : hash.failureHistory.getD (.text []) = .text history
  length : history.length = n
  pending : ∀ e ∈ history, e.isFinal = false
  le : n ≤ maxRetries

/-- The `SENT_TO_NS` events handed to the webhook store for a message. -/
def Store.sentEvents (s : Store) (m : MessageId) : List WebhookStoredRecord :=
  s.persisted.filter fun record =>
    record.event.message.deliveryStatus = .SENT_TO_NS ∧ record.event.message.id = some m

/-- Why a message fails for good at its `n`-th retry: its vendor forbids another
attempt, its task outlived the age cap, or there is no retry left. -/
inductive FailureCause (svc : Service) (h : Handler) (report : Option Report) (m : MessageId)
    (n : Nat) : Prop
  | skipped {context : FailureContext} (hr : report = some (m, context))
    (hs : context.skipRetry = true)
  | aged {queue : StageQueue} {now time : Nat} (hh : h = .task (.drain queue now))
    (hq : queue.stage = .awaitingTask) (ht : svc.decodeTime m = some time)
    (ha : pullMaxMessageAgeMs ≤ (now : Int) - time)
  | exhausted (hn : n = svc.delivery.maxRetries)

/-- A message fails for good with a cause, and is told of with what its hash
recorded and the last entry on top. -/
def FailsDuly (svc : Service) (h : Handler) (report : Option Report) (stored : Option MessageHash)
    (m : MessageId) (told : Option (List FailureReason)) : Prop :=
  ∃ hash n history entry, stored = some hash ∧
    hash.AtRetry svc.delivery.maxRetries n history ∧ told = some (entry :: history) ∧
    entry.isFinal = true ∧ FailureCause svc h report m n

def Failure.Justified (svc : Service) (f : Failure) (m : MessageId) : Prop :=
  FailsDuly svc f.handler f.report f.stored m f.record.event.message.failureHistory

/-- What a stored message was granted so far fits what its hash says. -/
structure Affords (svc : Service) (s : World × Tally) (m : MessageId) (hash : MessageHash) :
    Prop where
  retry : ∃ n history, hash.AtRetry svc.delivery.maxRetries n history ∧
    s.2.picks.count m ≤ n + 1 ∧
    (hash.Waits → s.2.picks.count m ≤ n ∧ (n = 0 → s.1.store.sentEvents m = []))
  placed : ∀ q, m ∈ s.1.store.redis.queues q → hash.deliveryStatus = some q.status

structure Balance (svc : Service) (s : World × Tally) (m : MessageId) : Prop where
  picks : s.2.picks.count m ≤ svc.delivery.maxRetries + 1
  sent : (s.1.store.sentEvents m).length ≤ 1
  stored : ∀ hash, s.1.store.redis.messages m = some hash → Affords svc s m hash
  unnamed : m ∉ s.1.store.named → s.1.store.redis.messages m = none ∧ s.2.picks.count m = 0 ∧
    s.1.store.sentEvents m = []

structure Budget (svc : Service) (s : World × Tally) : Prop where
  placement : Placement s.1.store
  balance : ∀ m, Balance svc s m
  failures : ∀ f ∈ s.2.failures, ∀ m, f.record.event.message.id = some m → f.Justified svc m
  recorded : ∀ record ∈ s.1.store.persisted,
    record.event.message.deliveryStatus = .DELIVERY_FAILED →
      ∃ f ∈ s.2.failures, f.record = record

variable {svc : Service} {s s' : World × Tally} {m x : MessageId} {hash : MessageHash}
  {h : Handler} {c : RedisCmd} {id : MessageId}

theorem budget_initial : Budget svc (.boot .empty, {}) where
  placement := placement_empty
  balance _ := ⟨Nat.zero_le _, Nat.zero_le _, (fun _ hh => nomatch hh), fun _ => ⟨rfl, rfl, rfl⟩⟩
  failures _ hf := nomatch hf
  recorded _ hr := nomatch hr

/-- A message that nothing was granted and that was put nowhere. -/
theorem Balance.frame (hb : Balance svc s x)
    (hm : ∀ hash, s'.1.store.redis.messages x = some hash → s.1.store.redis.messages x = some hash)
    (hq : ∀ q, x ∈ s'.1.store.redis.queues q → x ∈ s.1.store.redis.queues q)
    (hn : x ∈ s.1.store.named → x ∈ s'.1.store.named)
    (he : s'.1.store.sentEvents x = s.1.store.sentEvents x)
    (hp : s'.2.picks.count x = s.2.picks.count x) : Balance svc s' x where
  picks := hp ▸ hb.picks
  sent := he ▸ hb.sent
  stored hash hh := by
    obtain ⟨⟨n, history, hat, hpick, hwait⟩, hplaced⟩ := hb.stored hash (hm hash hh)
    refine ⟨⟨n, history, hat, hp ▸ hpick, fun hw => ?_⟩, fun q hx => hplaced q (hq q hx)⟩
    rw [hp, he]
    exact hwait hw
  unnamed hx := by
    obtain ⟨hnone, hpick, hsent⟩ := hb.unnamed fun hx' => hx (hn hx')
    refine ⟨?_, hp.trans hpick, he.trans hsent⟩
    by_contra hne
    obtain ⟨hash, hh⟩ := Option.ne_none_iff_exists'.mp hne
    rw [hm hash hh] at hnone
    cases hnone

/-- A step that hands over no event and picks nothing needs its one message
balanced. -/
theorem Budget.change (hb : Budget svc s) (hplace : Placement s'.1.store)
    (hm : ∀ x ≠ m, ∀ hash, s'.1.store.redis.messages x = some hash →
      s.1.store.redis.messages x = some hash)
    (hq : ∀ x ≠ m, ∀ q, x ∈ s'.1.store.redis.queues q → x ∈ s.1.store.redis.queues q)
    (hn : ∀ x ∈ s.1.store.named, x ∈ s'.1.store.named)
    (he : s'.1.store.persisted = s.1.store.persisted)
    (hp : ∀ x ≠ m, s'.2.picks.count x = s.2.picks.count x)
    (hf : s'.2.failures = s.2.failures) (hown : Balance svc s' m) : Budget svc s' where
  placement := hplace
  balance x := by
    by_cases hx : x = m
    · exact hx ▸ hown
    · refine (hb.balance x).frame (hm x hx) (hq x hx) (hn x) ?_ (hp x hx)
      unfold Store.sentEvents
      rw [he]
  failures := hf ▸ hb.failures
  recorded := by
    rw [he, hf]
    exact hb.recorded

/-- A step that writes nothing about any message. -/
theorem Budget.frame (hb : Budget svc s)
    (hm : ∀ x hash, s'.1.store.redis.messages x = some hash →
      s.1.store.redis.messages x = some hash)
    (hq : ∀ x q, x ∈ s'.1.store.redis.queues q → x ∈ s.1.store.redis.queues q)
    (hn : ∀ x ∈ s.1.store.named, x ∈ s'.1.store.named)
    (he : s'.1.store.persisted = s.1.store.persisted) (hp : s'.2.picks = s.2.picks)
    (hf : s'.2.failures = s.2.failures) : Budget svc s' where
  placement := hb.placement.shrink hq hn
  balance x := by
    refine (hb.balance x).frame (hm x) (hq x) (hn x) ?_ (by rw [hp])
    unfold Store.sentEvents
    rw [he]
  failures := hf ▸ hb.failures
  recorded := by
    rw [he, hf]
    exact hb.recorded

/-- Only the store, the picks and the failures count. -/
theorem Budget.same (hb : Budget svc s) (hs : s'.1.store = s.1.store)
    (hp : s'.2.picks = s.2.picks) (hf : s'.2.failures = s.2.failures) : Budget svc s' :=
  hb.frame (fun x hash hh => hs ▸ hh) (fun x q hx => hs ▸ hx) (fun x hx => hs ▸ hx) (by rw [hs]) hp
    hf

/-- What a message may be moved with: the status of the queue it is moved to. Only
a message that backed off is queued again. -/
def MoveArgs.Regular (a : MoveArgs) : Prop :=
  a.deliveryStatus = a.destinationQueue.status ∧ a.destinationQueue ≠ .retry ∧
    (a.deliveryStatus = .QUEUED → a.sourceQueue = .retry)

/-- A command whose effect is within the budget wherever it is issued: all but the
retry transaction and the handing over of events. -/
def RedisCmd.Routine (c : RedisCmd) : Prop :=
  match c with
  | enqueueDeviceMessage _ queueKey => queueKey.status = .QUEUED
  | moveMessageBetweenQueues a => a.Regular
  | fetchNextMessageInQueueAndMove a =>
    a.sourceQueue.status = .QUEUED ∧ a.destinationQueue = .ns ∧ a.newStatus = .SENT_TO_NS
  | enterRetry _ => False
  | webhookEnqueue _ _ => False
  | _ => True

theorem atRetry_created (maxRetries : Nat) (dto : CreateDeviceMessage) :
    (serializeCreateDeviceMessage dto).AtRetry maxRetries 0 [] :=
  ⟨rfl, rfl, rfl, (fun _ he => nomatch he), Nat.zero_le _⟩

theorem MessageHash.AtRetry.of_eq {maxRetries n : Nat} {history : List FailureReason}
    {hash hash' : MessageHash} (ha : hash.AtRetry maxRetries n history)
    (hc : hash'.retryCount = hash.retryCount) (hf : hash'.failureHistory = hash.failureHistory) :
    hash'.AtRetry maxRetries n history :=
  ⟨hc ▸ ha.count, hf ▸ ha.recorded, ha.length, ha.pending, ha.le⟩

theorem movedHash_fields (a : MoveArgs) (hash : MessageHash) :
    (movedHash a hash).retryCount = hash.retryCount ∧
      (movedHash a hash).failureHistory = hash.failureHistory ∧
      (movedHash a hash).deliveryStatus = some a.deliveryStatus := by
  unfold movedHash setDelivery
  split <;> exact ⟨rfl, rfl, rfl⟩

theorem Budget.enqueue (hb : Budget svc s) {dto : CreateDeviceMessage} {q : QueueKey}
    (hq : q.status = .QUEUED) (hf : id ∉ s.1.store.named) :
    Budget svc (afterCommand svc h (.enqueueDeviceMessage dto q) id s) := by
  obtain ⟨hnone, hpick, hsent⟩ := (hb.balance id).unnamed hf
  have hmsgs := enqueue_messages id dto q s.1.store.redis
  rw [hnone, Option.getD_none, MessageHash.write_empty] at hmsgs
  have hplace : Placement (s.1.store.exec (.enqueueDeviceMessage dto q) id).2 := by
    refine hb.placement.relocate q q (fun p hp => absurd (hb.placement.named id p hp) hf)
      (fun x p hp => ?_) (fun x hx => List.mem_cons_of_mem _ hx) List.mem_cons_self
    rcases mem_enqueue.mp hp with hp | hp
    · exact .inl ⟨hp, fun e => absurd (hb.placement.named x p hp) (e ▸ hf)⟩
    · exact .inr hp
  refine hb.change (m := id) hplace (fun x hx hash hh => ?_) (fun x hx p hp => ?_)
    (fun x hx => List.mem_cons_of_mem _ hx) rfl (fun x hx => rfl) rfl ?_
  · have hh := (congrFun hmsgs x).symm.trans hh
    rwa [Function.update_of_ne hx] at hh
  · exact (mem_enqueue.mp hp).resolve_right fun e => hx e.1
  · refine ⟨(hb.balance id).picks, (hb.balance id).sent, fun hash hh => ?_,
      fun hx => absurd List.mem_cons_self hx⟩
    have hh := (congrFun hmsgs id).symm.trans hh
    rw [Function.update_self] at hh
    cases hh
    refine ⟨⟨0, [], atRetry_created _ dto, ?_, fun _ => ⟨hpick.le, fun _ => hsent⟩⟩, fun p hp => ?_⟩
    · exact le_trans hpick.le (Nat.zero_le _)
    · rcases mem_enqueue.mp hp with hp | ⟨-, rfl⟩
      · exact absurd (hb.placement.named id p hp) hf
      · rw [hq]
        rfl

theorem Budget.moved (hb : Budget svc s) {a : MoveArgs} (ha : a.Regular) :
    Budget svc (afterCommand svc h (.moveMessageBetweenQueues a) id s) := by
  have hplace : Placement (s.1.store.exec (.moveMessageBetweenQueues a) id).2 :=
    placement_exec hb.placement trivial fun hd => nomatch hd
  have hnamed : ∀ x ∈ s.1.store.named, x ∈ (s.1.store.exec (.moveMessageBetweenQueues a) id).2.named :=
    named_exec _ _ _
  have hstore : (s.1.store.exec (.moveMessageBetweenQueues a) id).2.redis =
    (moveMessageBetweenQueues a s.1.store.redis).2 := rfl
  have hredis : (afterCommand svc h (.moveMessageBetweenQueues a) id s).1.store.redis =
    (moveMessageBetweenQueues a s.1.store.redis).2 := rfl
  rcases move_cases a s.1.store.redis with ⟨-, he⟩ | ⟨-, -, he⟩ | ⟨-, -, he⟩ |
    ⟨hm, g, k, hg, -, he⟩ <;> rw [he] at hredis
  · exact hb.frame (fun x hash hh => by rwa [hredis] at hh) (fun x q hx => by rwa [hredis] at hx)
      hnamed rfl rfl rfl
  · refine hb.frame (fun x hash hh => by rwa [hredis] at hh) (fun x q hx => ?_) hnamed rfl rfl rfl
    rw [hredis] at hx
    exact (mem_zrem.mp hx).1
  · refine hb.frame (fun x hash hh => by rwa [hredis] at hh) (fun x q hx => ?_) hnamed rfl rfl rfl
    rw [hredis] at hx
    exact (mem_zrem.mp hx).1
  · have hmsgs : (moveClaimed a k (s.1.store.redis.zrem a.sourceQueue a.messageId)).messages =
        Function.update s.1.store.redis.messages a.messageId (some (movedHash a g)) := by
      simp [moveClaimed, movedHash, hg]
    have hqueue : ∀ x q, x ∈ (moveClaimed a k
        (s.1.store.redis.zrem a.sourceQueue a.messageId)).queues q →
        (x ∈ s.1.store.redis.queues q ∧ (x = a.messageId → q ≠ a.sourceQueue)) ∨
          (x = a.messageId ∧ q = a.destinationQueue) :=
      fun x q hx => (mem_moveClaimed.mp hx).imp_left mem_zrem.mp
    obtain ⟨hcount, hhist, hstatus⟩ := movedHash_fields a g
    obtain ⟨hdest, hnr, hsrc⟩ := ha
    obtain ⟨⟨n, history, hat, hpick, hwait⟩, hplaced⟩ := (hb.balance a.messageId).stored g hg
    refine hb.change (m := a.messageId) hplace (fun x hx hash hh => ?_) (fun x hx q hq => ?_) hnamed
      rfl (fun _ _ => rfl) rfl ?_
    · rw [hredis, hmsgs, Function.update_of_ne hx] at hh
      exact hh
    · rw [hredis] at hq
      exact ((hqueue x q hq).resolve_right fun e => hx e.1).1
    · refine ⟨(hb.balance _).picks, (hb.balance _).sent, fun hash hh => ?_,
        fun hx => absurd List.mem_cons_self hx⟩
      rw [hredis, hmsgs, Function.update_self] at hh
      cases hh
      refine ⟨⟨n, history, hat.of_eq hcount hhist, hpick, fun hw => hwait ?_⟩, fun q hq => ?_⟩
      · -- what waits after the move waited in retry before it
        have hq : a.deliveryStatus = .QUEUED := by
          rcases hw with hw | hw
          · exact Option.some.inj (hstatus.symm.trans hw)
          · have hr := Option.some.inj (hstatus.symm.trans hw)
            rw [hdest] at hr
            refine absurd ?_ hnr
            cases hd : a.destinationQueue <;> rw [hd] at hr <;> first | rfl | cases hr
        rw [hsrc hq] at hm
        exact .inr (hplaced _ hm)
      · rw [hredis] at hq
        rcases hqueue _ q hq with ⟨hq, hne⟩ | ⟨-, rfl⟩
        · exact absurd (hb.placement.single _ _ _ hq hm) (hne rfl)
        · rw [hstatus, hdest]

theorem pickedHash_fields (a : FetchArgs) (hash : MessageHash) :
    (pickedHash a hash).retryCount = hash.retryCount ∧
      (pickedHash a hash).failureHistory = hash.failureHistory ∧
      (pickedHash a hash).deliveryStatus = some a.newStatus :=
  ⟨rfl, rfl, rfl⟩

/-- A pick is one more, of a message that waited for it. -/
theorem Budget.picked (hb : Budget svc s) {a : FetchArgs} {rest : SortedSet ℚ MessageId}
    {t : ℚ} {w : World} (hsource : a.sourceQueue.status = .QUEUED) (hdest : a.destinationQueue = .ns)
    (hstatus : a.newStatus = .SENT_TO_NS)
    (hpop : (s.1.store.redis.queues a.sourceQueue).popMin = some (m, rest))
    (hh : s.1.store.redis.messages m = some hash)
    (hw : w.store = { s.1.store with
      redis := pickClaimed a t m (popSource a rest s.1.store.redis) }) :
    Budget svc (w, { s.2 with picks := m :: s.2.picks }) ∧
      ∃ n history, (pickedHash a hash).AtRetry svc.delivery.maxRetries n history ∧
        (n = 0 → s.1.store.sentEvents m = []) := by
  have hm : m ∈ s.1.store.redis.queues a.sourceQueue := (SortedSet.mem_popMin hpop).mpr (.inl rfl)
  obtain ⟨⟨n, history, hat, -, hwait⟩, hplaced⟩ := (hb.balance m).stored hash hh
  obtain ⟨hpick, hsent⟩ := hwait (.inl (hsource ▸ hplaced _ hm))
  have hat : (pickedHash a hash).AtRetry svc.delivery.maxRetries n history := hat.of_eq rfl rfl
  refine ⟨?_, n, history, hat, hsent⟩
  have hmsgs : w.store.redis.messages =
      Function.update s.1.store.redis.messages m (some (pickedHash a hash)) := by
    rw [hw]
    have hh' : (popSource a rest s.1.store.redis).messages m = some hash :=
      (congrFun popSource_messages m).trans hh
    refine (pickClaimed_messages hh').trans ?_
    rw [popSource_messages]
  have hqueue : ∀ x q, x ∈ w.store.redis.queues q →
      (x ∈ s.1.store.redis.queues q ∧ (x = m → q ≠ a.sourceQueue)) ∨
        (x = m ∧ q = a.destinationQueue) := by
    intro x q hx
    rw [hw] at hx
    exact (mem_pickClaimed.mp hx).imp_left (mem_popSource hpop).mp
  have hnamed : w.store.named = s.1.store.named := by rw [hw]
  have hsent' : ∀ x, w.store.sentEvents x = s.1.store.sentEvents x := fun x => by rw [hw]; rfl
  have hmn := hb.placement.named m _ hm
  refine hb.change (m := m) ?_ (fun x hx h' hh' => ?_) (fun x hx q hq => ?_) (fun x hx => hnamed ▸ hx)
    (by rw [hw]) (fun x hx => List.count_cons_of_ne (Ne.symm hx)) rfl ?_
  · exact hb.placement.relocate a.sourceQueue a.destinationQueue
      (fun q hq => .inl (hb.placement.single m q _ hq hm)) hqueue (fun x hx => hnamed ▸ hx)
      (hnamed ▸ hmn)
  · rw [hmsgs, Function.update_of_ne hx] at hh'
    exact hh'
  · exact ((hqueue x q hq).resolve_right fun e => hx e.1).1
  · have hcount : (m :: s.2.picks).count m ≤ n + 1 := by
      rw [List.count_cons_self]
      omega
    refine ⟨?_, (hsent' m) ▸ (hb.balance m).sent, fun h' hh' => ?_, fun hx => absurd (hnamed ▸ hmn) hx⟩
    · have hle := hat.le
      exact le_trans hcount (by omega)
    · rw [hmsgs, Function.update_self] at hh'
      cases hh'
      refine ⟨⟨n, history, hat, hcount, fun hw' => ?_⟩, fun q hq => ?_⟩
      · rcases hw' with hw' | hw' <;> rw [(pickedHash_fields a hash).2.2, hstatus] at hw' <;>
          cases hw'
      · rcases hqueue m q hq with ⟨hq, hne⟩ | ⟨-, rfl⟩
        · exact absurd (hb.placement.single _ _ _ hq hm) (hne rfl)
        · rw [(pickedHash_fields a hash).2.2, hstatus, hdest]
          rfl

/-- What a pick comes to: nothing, an error, or a message that is now in `ns`. -/
theorem Budget.fetched (hb : Budget svc s) {a : FetchArgs} (hsource : a.sourceQueue.status = .QUEUED)
    (hdest : a.destinationQueue = .ns) (hstatus : a.newStatus = .SENT_TO_NS) :
    Budget svc (afterCommand svc h (.fetchNextMessageInQueueAndMove a) id s) ∧
      ∀ m hash, (s.1.store.exec (.fetchNextMessageInQueueAndMove a) id).1 = .ok (some (m, hash)) →
        (afterCommand svc h (.fetchNextMessageInQueueAndMove a) id s).1.store.redis.messages m =
            some hash ∧ hash.deliveryStatus = some .SENT_TO_NS ∧
          ∃ n history, hash.AtRetry svc.delivery.maxRetries n history ∧
            (n = 0 → s.1.store.sentEvents m = []) := by
  have hafter : afterCommand svc h (.fetchNextMessageInQueueAndMove a) id s =
      ({ s.1 with store := { s.1.store with
          redis := (fetchNextMessageInQueueAndMove a s.1.store.redis).2 } },
        Tally.note svc h s.1 (.redis (.fetchNextMessageInQueueAndMove a))
          (fetchNextMessageInQueueAndMove a s.1.store.redis).1 s.2) := rfl
  have hvalue : (s.1.store.exec (.fetchNextMessageInQueueAndMove a) id).1 =
    (fetchNextMessageInQueueAndMove a s.1.store.redis).1 := rfl
  rw [hafter, hvalue]
  have hquiet : ∀ r : Redis, r.messages = s.1.store.redis.messages →
      (∀ x q, x ∈ r.queues q → x ∈ s.1.store.redis.queues q) →
      Budget svc ({ s.1 with store := { s.1.store with redis := r } }, s.2) := fun r hm hq =>
    hb.frame (fun x hash hh => hm ▸ hh) hq (fun x hx => hx) rfl rfl rfl
  rcases fetch_cases a s.1.store.redis with he | he | ⟨m, rest, hpop, he⟩
  · rw [he]
    exact ⟨hquiet _ rfl fun x q hx => hx, fun m hash hv => nomatch hv⟩
  · rw [he]
    exact ⟨hquiet _ rfl fun x q hx => hx, fun m hash hv => nomatch hv⟩
  · rcases he with ⟨-, he⟩ | ⟨-, he⟩ | ⟨hash, t, hh, -, he⟩ <;> rw [he]
    · exact ⟨hquiet _ popSource_messages fun x q hx => ((mem_popSource hpop).mp hx).1,
        fun m hash hv => nomatch hv⟩
    · exact ⟨hquiet _ popSource_messages fun x q hx => ((mem_popSource hpop).mp hx).1,
        fun m hash hv => nomatch hv⟩
    · have hmsgs : (pickClaimed a t m (popSource a rest s.1.store.redis)).messages m =
          some (pickedHash a hash) := by
        rw [pickClaimed_messages (by rw [popSource_messages, hh]), Function.update_self]
      rw [hmsgs]
      obtain ⟨hb', n, history, hat, hsent⟩ := hb.picked (w := { s.1 with store := { s.1.store with
        redis := pickClaimed a t m (popSource a rest s.1.store.redis) } }) (t := t) hsource hdest
        hstatus hpop hh rfl
      refine ⟨hb', fun m' hash' hv => ?_⟩
      cases hv
      refine ⟨hmsgs, ?_, n, history, hat, hsent⟩
      rw [(pickedHash_fields a hash).2.2, hstatus]

theorem Budget.routine (hb : Budget svc s) (hc : c.Routine) (hf : c.Fresh id s.1.store) :
    Budget svc (afterCommand svc h c id s) := by
  have hnamed : ∀ x ∈ s.1.store.named, x ∈ (s.1.store.exec c id).2.named := named_exec _ _ _
  cases c with
  | enqueueDeviceMessage dto q => exact hb.enqueue hc (hf rfl).2
  | moveMessageBetweenQueues a => exact hb.moved hc
  | fetchNextMessageInQueueAndMove a => exact (hb.fetched hc.1 hc.2.1 hc.2.2).1
  | enterRetry a => exact hc.elim
  | webhookEnqueue record now => exact hc.elim
  | removeMessageFromQueue q x =>
    exact hb.frame (fun _ _ hh => hh) (fun _ _ hx => (mem_zrem.mp hx).1) hnamed rfl rfl rfl
  | messageFullCleanup message qs =>
    refine hb.frame (fun x hash hh => ?_) (fun _ _ hx => (mem_cleanup.mp hx).1) hnamed rfl rfl rfl
    have hh := (congrFun (cleanup_messages message qs s.1.store.redis) x).symm.trans hh
    exact (update_none_cases hh).2
  | zaddXx q score x =>
    cases score with
    | none => exact hb.same rfl rfl rfl
    | some k =>
      refine hb.frame (fun _ _ hh => hh) (fun y p hy => ?_) hnamed rfl rfl rfl
      rcases mem_update.mp hy with ⟨rfl, hy⟩ | ⟨-, hy⟩
      · exact SortedSet.mem_rescore.mp hy
      · exact hy
  | lockQueueForTimeMs q ms =>
    obtain ⟨locks, hl⟩ := lockQueue_locks q ms s.1.store.redis
    have hr : (afterCommand svc h (.lockQueueForTimeMs q ms) id s).1.store.redis =
      { s.1.store.redis with locks := locks } := hl
    refine hb.frame (fun _ _ hh => ?_) (fun _ _ hx => ?_) hnamed rfl rfl rfl
    · rwa [hr] at hh
    · rwa [hr] at hx
  | sremRateLimit k ids =>
    refine hb.frame (fun x hash hh => ?_) (fun x q hx => ?_) hnamed rfl rfl rfl
    · rwa [← validateAndClean_messages k ids]
    · rwa [← validateAndClean_queues k ids]
  | saddDistribute q => exact hb.frame (fun _ _ hh => hh) (fun _ _ hx => hx) hnamed rfl rfl rfl
  | _ => exact hb.same rfl rfl rfl

end DeviceMessaging
