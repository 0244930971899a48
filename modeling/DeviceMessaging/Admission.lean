import DeviceMessaging.LiveIndex
import DeviceMessaging.SinglePlacement
import DeviceMessaging.PlainPrograms

namespace DeviceMessaging

open Effect

/-- The status of a message that waits in the queue. -/
def QueueKey.status (q : QueueKey) : DeliveryStatus :=
  match q with
  | ready _ => .QUEUED
  | ns => .SENT_TO_NS
  | relayNode => .DELIVERED_TO_NS
  | device => .SENT_TO_DEVICE
  | awaitingTask _ => .DELIVERED_TO_NS
  | retry => .TO_RETRY

/-- The ready queue a stored message belongs to. -/
def MessageHash.home (svc : Service) (h : MessageHash) : Option QueueKey :=
  match h.device with
  | some (.text device) => (h.pluginId.bind svc.registry.delivery).map fun plugin =>
      plugin.initialQueueKey (h.networkId.map FieldText.parseNumber) device
  | _ => none

/-- The message is not under way. -/
def MessageHash.Waits (h : MessageHash) : Prop :=
  h.deliveryStatus = some .QUEUED ∨ h.deliveryStatus = some .TO_RETRY

/-- The transaction of an `enterRetry` finds the message as its `ZSCORE` and `HMGET`
did, as it does when the operation is atomic. -/
def Steady (c : RedisCmd) (s : Store) : Prop :=
  match c with
  | .enterRetry a => a.messageId ∈ s.redis.queues a.fromKey ∧
      a.concurrencyRateLimitKey = (s.redis.messages a.messageId).bind (·.concurrencyRateLimitKey)
  | _ => True

/-- What a stored message says of its queue and of the slot it holds. -/
structure Slotted (svc : Service) (s : Store) (id : MessageId) (h : MessageHash) : Prop where
  placed : ∀ q, id ∈ s.redis.queues q → h.deliveryStatus = some q.status
  homed : ∀ node, id ∈ s.redis.queues (.ready node) → h.home svc = some (.ready node)
  held : ∀ k, id ∈ s.redis.rateLimits k ↔ h.concurrencyRateLimitKey = some k
  waiting : h.Waits → h.concurrencyRateLimitKey = none
  flying : ¬ h.Waits → ∀ node plugin max, h.home svc = some (.ready node) →
    svc.registry.delivery node.pluginId = some plugin → plugin.admission = .concurrency max →
    h.concurrencyRateLimitKey = some node

/-- The cap of each rate limit, and what the messages say of it. -/
structure SlotsKept (svc : Service) (s : Store) : Prop where
  placement : Placement s
  phantomless : NoPhantom s
  slots : ∀ id h, s.redis.messages id = some h → Slotted svc s id h
  named : ∀ id k, id ∈ s.redis.rateLimits k → id ∈ s.named
  capped : ∀ node plugin max, svc.registry.delivery node.pluginId = some plugin →
    plugin.admission = .concurrency max → (s.redis.rateLimits node).card ≤ max

variable {svc : Service} {s t : Store} {c : RedisCmd} {i id : MessageId} {h h' : MessageHash}
  {r : Redis}

theorem stageKeyFor_status (stage : StageName) (pluginId : PluginId) :
    (stageKeyFor stage pluginId).status = (stages stage).entryStatus := by
  cases stage <;> rfl

theorem status_waits {q : QueueKey} (hq : h.deliveryStatus = some q.status) :
    h.Waits ↔ q = .retry ∨ ∃ node, q = .ready node := by
  unfold MessageHash.Waits
  cases q <;> simp [hq, QueueKey.status]

theorem home_of_immutable (hi : h'.immutable = h.immutable) : h'.home svc = h.home svc := by
  have hdevice := congrArg MessageHash.device hi
  have hplugin := congrArg MessageHash.pluginId hi
  have hnetwork := congrArg MessageHash.networkId hi
  dsimp only [MessageHash.immutable] at hdevice hplugin hnetwork
  unfold MessageHash.home
  rw [hdevice, hplugin, hnetwork]

theorem MessageHash.HoldsCreate.home {dto : CreateDeviceMessage} (hc : h.HoldsCreate dto) :
    h.home svc = dto.home svc := by
  have hdevice := congrArg MessageHash.device hc.fields
  have hplugin := congrArg MessageHash.pluginId hc.fields
  have hnetwork := congrArg MessageHash.networkId hc.fields
  dsimp only [MessageHash.immutable, serializeCreateDeviceMessage] at hdevice hplugin hnetwork
  unfold MessageHash.home CreateDeviceMessage.home
  rw [hdevice, hplugin, hnetwork, Option.map_map]
  rfl

/-- A message a command does not write stays slotted, if it is put nowhere. -/
theorem Slotted.frame (hs : Slotted svc s id h)
    (hq : ∀ q, id ∈ t.redis.queues q → id ∈ s.redis.queues q)
    (hr : ∀ k, id ∈ t.redis.rateLimits k ↔ id ∈ s.redis.rateLimits k) : Slotted svc t id h where
  placed q hid := hs.placed q (hq q hid)
  homed node hid := hs.homed node (hq _ hid)
  held k := (hr k).trans (hs.held k)
  waiting := hs.waiting
  flying := hs.flying

/-- A message that changes its queue, but neither its slot nor whether it waits. -/
theorem Slotted.relocate {q : QueueKey} (hs : Slotted svc s id h)
    (hi : h'.immutable = h.immutable) (hstatus : h'.deliveryStatus = some q.status)
    (hkey : h'.concurrencyRateLimitKey = h.concurrencyRateLimitKey)
    (hwaits : h'.Waits ↔ h.Waits) (hhome : ∀ node, q = .ready node → h.home svc = some q)
    (hq : ∀ p, id ∈ t.redis.queues p → p = q)
    (hr : ∀ k, id ∈ t.redis.rateLimits k ↔ id ∈ s.redis.rateLimits k) : Slotted svc t id h' where
  placed p hp := by rw [hq p hp, hstatus]
  homed node hid := by
    rw [home_of_immutable hi, hhome node (hq _ hid).symm, hq _ hid]
  held k := by rw [hr k, hs.held k, hkey]
  waiting hw := hkey.trans (hs.waiting (hwaits.mp hw))
  flying hw node plugin max hh hp ha := by
    rw [home_of_immutable hi] at hh
    exact hkey.trans (hs.flying (fun e => hw (hwaits.mpr e)) node plugin max hh hp ha)

theorem slotsKept_empty : SlotsKept svc .empty where
  placement := placement_empty
  phantomless := noPhantom_empty
  slots _ _ h := nomatch h
  named _ _ h := absurd h MemberSet.not_mem_empty
  capped _ _ _ _ _ := Nat.zero_le _

/-- A pick takes a slot only while the cap is not reached. -/
theorem fetch_rateLimits (a : FetchArgs) (r : Redis) :
    (fetchNextMessageInQueueAndMove a r).2.rateLimits = r.rateLimits ∨
      (concurrencyCapFull a r = false ∧ ∃ m, m ∈ r.queues a.sourceQueue ∧
        ∀ x k, x ∈ (fetchNextMessageInQueueAndMove a r).2.rateLimits k ↔
          (x = m ∧ a.concurrencyRateLimitKey = some k) ∨ x ∈ r.rateLimits k) := by
  cases hcap : concurrencyCapFull a r with
  | true =>
    left
    unfold fetchNextMessageInQueueAndMove
    rw [if_pos hcap]
  | false =>
    rcases fetch_cases a r with he | he | ⟨m, rest, hp, ⟨-, he⟩ | ⟨-, he⟩ | ⟨h, t, -, -, he⟩⟩ <;>
      rw [he]
    · exact .inl rfl
    · exact .inl rfl
    · exact .inl popSource_indexes.rateLimits
    · exact .inl popSource_indexes.rateLimits
    · refine .inr ⟨rfl, m, (SortedSet.mem_popMin hp).mpr (.inl rfl), fun x k => ?_⟩
      rw [mem_pickClaimed_rateLimits, popSource_indexes.rateLimits]

/-- Only a pick adds to a rate limit. -/
theorem rateLimits_exec {x : MessageId} {k : AdmissionNode}
    (hc : ∀ a, c ≠ .fetchNextMessageInQueueAndMove a) (hx : x ∈ (s.exec c i).2.redis.rateLimits k) :
    x ∈ s.redis.rateLimits k := by
  cases c with
  | enqueueDeviceMessage dto q =>
    simp only [Store.exec, RedisCmd.run, enqueue_rateLimits] at hx
    exact hx
  | moveMessageBetweenQueues a =>
    simp only [Store.exec, RedisCmd.run] at hx
    rcases move_cases a s.redis with ⟨-, he⟩ | ⟨-, -, he⟩ | ⟨-, -, he⟩ | ⟨-, h, score, -, -, he⟩ <;>
      rw [he] at hx
    · exact hx
    · exact hx
    · exact hx
    · rwa [moveClaimed_rateLimits] at hx
  | fetchNextMessageInQueueAndMove a => exact absurd rfl (hc a)
  | enterRetry a => exact (mem_enterRetry_rateLimits.mp hx).1
  | messageFullCleanup m qs => exact (mem_cleanup_rateLimits.mp hx).1
  | sremRateLimit l ids => exact (mem_validateAndClean.mp hx).1
  | zaddXx q score m => cases score <;> exact hx
  | lockQueueForTimeMs q ms =>
    simp only [Store.exec, RedisCmd.run, lockQueueForTimeMs] at hx
    split at hx <;> exact hx
  | _ => exact hx

theorem capped_exec (hs : SlotsKept svc s) (hc : Cmd.Proper svc s.enqueued (.redis c))
    {node : AdmissionNode} {plugin : DeliveryPlugin} {max : Nat}
    (hp : svc.registry.delivery node.pluginId = some plugin)
    (ha : plugin.admission = .concurrency max) :
    ((s.exec c i).2.redis.rateLimits node).card ≤ max := by
  have hold := hs.capped node plugin max hp ha
  by_cases hpick : ∃ a, c = .fetchNextMessageInQueueAndMove a
  · obtain ⟨a, rfl⟩ := hpick
    obtain ⟨node', plugin', hp', -, -, -, -, hslot⟩ := hc
    rcases fetch_rateLimits a s.redis with he | ⟨hcap, m, -, hmem⟩
    · exact le_trans (MemberSet.card_le fun x hx => by
        rw [← he]
        exact hx) hold
    · by_cases hkey : a.concurrencyRateLimitKey = some node
      · -- the slot is taken in this set: its admission is the one the pick was made under
        have hnode : node' = node ∧ a.maxInFlight = max ∧ 0 < max := by
          cases hadm : plugin'.admission with
          | spacing ms =>
            rw [hadm] at hslot
            exact absurd (hslot.symm.trans hkey) (by simp)
          | concurrency max' =>
            rw [hadm] at hslot
            obtain ⟨hk, hm, hpos⟩ := hslot
            have hn : node' = node := Option.some.inj (hk.symm.trans hkey)
            subst hn
            rw [hp] at hp'
            cases hp'
            rw [ha] at hadm
            cases hadm
            exact ⟨rfl, hm, hpos⟩
        obtain ⟨-, hmax, hpos⟩ := hnode
        have hlt : (s.redis.rateLimits node).card < max := by
          simp only [concurrencyCapFull, hkey, hmax, decide_eq_false_iff_not] at hcap
          omega
        have hle : ((s.exec (.fetchNextMessageInQueueAndMove a) i).2.redis.rateLimits node).card ≤
            (s.redis.rateLimits node).card + 1 :=
          MemberSet.card_le_insert (y := m) fun x hx =>
            ((hmem x node).mp hx).imp_left fun h => h.1
        omega
      · exact le_trans (MemberSet.card_le fun x hx =>
          ((hmem x node).mp hx).resolve_left fun h => hkey h.2) hold
  · exact le_trans (MemberSet.card_le fun x hx =>
      rateLimits_exec (fun a e => hpick ⟨a, e⟩) hx) hold

theorem limited_named_exec (hs : SlotsKept svc s) {k : AdmissionNode}
    (hid : id ∈ (s.exec c i).2.redis.rateLimits k) : id ∈ (s.exec c i).2.named := by
  by_cases hpick : ∃ a, c = .fetchNextMessageInQueueAndMove a
  · obtain ⟨a, rfl⟩ := hpick
    rcases fetch_rateLimits a s.redis with he | ⟨-, m, hm, hmem⟩
    · exact named_exec _ _ _ _ (hs.named id k (he ▸ hid))
    · rcases (hmem id k).mp hid with ⟨rfl, -⟩ | hid
      · exact named_exec _ _ _ _ (hs.placement.named _ _ hm)
      · exact named_exec _ _ _ _ (hs.named id k hid)
  · exact named_exec _ _ _ _ (hs.named id k (rateLimits_exec (fun a e => hpick ⟨a, e⟩) hid))

/-- The request a stored message stems from. -/
theorem SlotsKept.origin (hs : SlotsKept svc s) (hprov : Provenance s)
    (hh : s.redis.messages id = some h) {dto : CreateDeviceMessage} (hdto : (id, dto) ∈ s.enqueued) :
    h.HoldsCreate dto := by
  obtain ⟨dto', hdto', hcr⟩ := hs.phantomless.stored id h hh
  have he := hprov.unique _ hdto _ hdto' rfl
  cases he
  exact hcr

theorem slots_enqueue {dto : CreateDeviceMessage} {q : QueueKey} (hs : SlotsKept svc s)
    (hprov : Provenance s) (hf : i ∉ s.named) (hq : dto.home svc = some q)
    (hh : (s.exec (.enqueueDeviceMessage dto q) i).2.redis.messages id = some h) :
    Slotted svc (s.exec (.enqueueDeviceMessage dto q) i).2 id h := by
  have hlimits : ∀ k, id ∈ (enqueueMulti i dto q s.redis).rateLimits k ↔
      id ∈ s.redis.rateLimits k := fun k => by rw [enqueue_rateLimits]
  have hh := (congrFun (enqueue_messages i dto q s.redis) id).symm.trans hh
  rcases update_some_cases hh with ⟨rfl, rfl⟩ | ⟨hne, hh⟩
  · have hnone : s.redis.messages id = none := by
      by_contra hne
      exact hf (hprov.named id hne)
    have hqueue : ∀ p, id ∈ (enqueueMulti id dto q s.redis).queues p → p = q := by
      intro p hp
      rcases mem_enqueue.mp hp with hp | ⟨-, hp⟩
      · exact absurd (hs.placement.named _ _ hp) hf
      · exact hp
    rw [hnone, Option.getD_none, MessageHash.write_empty]
    obtain ⟨node, rfl⟩ : ∃ node, q = .ready node := by
      obtain ⟨plugin, -, rfl⟩ := Option.map_eq_some_iff.mp hq
      exact ⟨_, rfl⟩
    refine ⟨fun p hp => ?_, fun node' hp => ?_, fun k => ?_, fun _ => rfl, fun hw => ?_⟩
    · rw [hqueue p hp]
      rfl
    · rw [(holdsCreate_serialize dto).home, hq, hqueue _ hp]
    · rw [show (s.exec (.enqueueDeviceMessage dto (.ready node)) id).2.redis.rateLimits =
        s.redis.rateLimits from enqueue_rateLimits]
      exact ⟨fun hid => absurd (hs.named _ _ hid) hf, fun hk => nomatch hk⟩
    · exact absurd (.inl rfl) hw
  · refine (hs.slots id h hh).frame (fun p hp => ?_) hlimits
    exact (mem_enqueue.mp hp).resolve_right fun e => hne e.1

/-- The two kinds of move: along a pipeline, or back into the ready queue. -/
theorem move_waits {a : MoveArgs} (hs : SlotsKept svc s) (hprov : Provenance s)
    (hc : Cmd.Proper svc s.enqueued (.redis (.moveMessageBetweenQueues a)))
    (hh : s.redis.messages a.messageId = some h) (hm : a.messageId ∈ s.redis.queues a.sourceQueue) :
    a.deliveryStatus = a.destinationQueue.status ∧
      (a.destinationQueue.status = .QUEUED ↔ h.Waits) ∧ a.destinationQueue.status ≠ .TO_RETRY ∧
      ∀ node, a.destinationQueue = .ready node → h.home svc = some a.destinationQueue := by
  have hplaced := (hs.slots _ h hh).placed _ hm
  rcases hc with ⟨plugin, fromStage, next, -, hnext, hsrc, hdest, hstatus, -⟩ |
    ⟨dto, hdto, hsrc, hhome, hstatus, -⟩
  · have hstage : fromStage = .ns ∨ fromStage = .relayNode := by
      cases hpat : plugin.deliveryPattern <;> rw [hpat] at hnext <;> cases fromStage <;>
        first | exact .inl rfl | exact .inr rfl | cases hnext
    have hentry : (stages next).entryStatus ≠ .QUEUED ∧ (stages next).entryStatus ≠ .TO_RETRY := by
      have hne := nextStage_ne hnext
      cases next <;> first | exact absurd rfl hne.1 | exact ⟨by decide, by decide⟩
    refine ⟨?_, ?_, ?_, fun node hnode => ?_⟩
    · rw [hstatus, hdest, stageKeyFor_status]
    · rw [hdest, stageKeyFor_status, status_waits hplaced, hsrc]
      refine ⟨fun he => absurd he hentry.1, fun hw => ?_⟩
      rcases hstage with rfl | rfl <;> simp [stageKeyFor, stages] at hw
    · rw [hdest, stageKeyFor_status]
      exact hentry.2
    · exact absurd (hdest.symm.trans hnode) (stageKeyFor_ne_ready _ _ _)
  · obtain ⟨plugin, -, hq⟩ := Option.map_eq_some_iff.mp hhome
    have hready : ∃ node, a.destinationQueue = .ready node := ⟨_, hq.symm⟩
    obtain ⟨node, hnode⟩ := hready
    refine ⟨?_, ?_, ?_, fun _ _ => ?_⟩
    · rw [hstatus, hnode]
      rfl
    · rw [hnode, status_waits hplaced, hsrc]
      exact ⟨fun _ => .inl rfl, fun _ => rfl⟩
    · rw [hnode]
      intro he
      cases he
    · rw [(hs.origin hprov hh hdto).home, hhome]

/-- A move that commits changes neither a message's slot nor whether it waits. -/
theorem slots_move {a : MoveArgs} (hs : SlotsKept svc s) (hprov : Provenance s)
    (hc : Cmd.Proper svc s.enqueued (.redis (.moveMessageBetweenQueues a)))
    (hh : (moveMessageBetweenQueues a s.redis).2.messages id = some h) :
    Slotted svc (s.exec (.moveMessageBetweenQueues a) i).2 id h := by
  have hstore : (s.exec (.moveMessageBetweenQueues a) i).2.redis =
      (moveMessageBetweenQueues a s.redis).2 := rfl
  rcases move_cases a s.redis with ⟨-, he⟩ | ⟨-, -, he⟩ | ⟨-, -, he⟩ | ⟨hm, g, k, hg, -, he⟩ <;>
    rw [he] at hh hstore
  · exact (hs.slots id h hh).frame (fun p hp => by rwa [hstore] at hp) fun k => by rw [hstore]
  · refine (hs.slots id h hh).frame (fun p hp => ?_) fun k => by rw [hstore]; rfl
    rw [hstore] at hp
    exact (mem_zrem.mp hp).1
  · refine (hs.slots id h hh).frame (fun p hp => ?_) fun k => by rw [hstore]; rfl
    rw [hstore] at hp
    exact (mem_zrem.mp hp).1
  · have hlimits : ∀ l, id ∈ (s.exec (.moveMessageBetweenQueues a) i).2.redis.rateLimits l ↔
        id ∈ s.redis.rateLimits l := by
      intro l
      rw [hstore, moveClaimed_rateLimits]
      rfl
    have hmsgs : (moveClaimed a k (s.redis.zrem a.sourceQueue a.messageId)).messages =
        Function.update s.redis.messages a.messageId (some (movedHash a g)) := by
      simp [moveClaimed, movedHash, hg]
    rw [hmsgs] at hh
    rcases update_some_cases hh with ⟨rfl, rfl⟩ | ⟨hne, hh⟩
    · obtain ⟨hstatus, hwaits, hretry, hhome⟩ := move_waits hs hprov hc hg hm
      have hst : (movedHash a g).deliveryStatus = some a.destinationQueue.status := by
        rw [← hstatus]
        unfold movedHash setDelivery
        split <;> rfl
      refine (hs.slots _ g hg).relocate (movedHash_immutable a g).1 hst ?_ ?_ hhome
        (fun p hp => ?_) hlimits
      · unfold movedHash setDelivery
        split <;> rfl
      · rw [← hwaits]
        unfold MessageHash.Waits
        simp [hst, hretry]
      · rw [hstore] at hp
        rcases mem_moveClaimed.mp hp with hp | ⟨-, hp⟩
        · obtain ⟨hp, hne⟩ := mem_zrem.mp hp
          exact absurd (hs.placement.single _ _ _ hp hm) (hne rfl)
        · exact hp
    · refine (hs.slots id h hh).frame (fun p hp => ?_) hlimits
      rw [hstore] at hp
      rcases mem_moveClaimed.mp hp with hp | ⟨e, -⟩
      · exact (mem_zrem.mp hp).1
      · exact absurd e hne

/-- A picked message takes a slot, if its queue has slots. -/
theorem slots_fetch {a : FetchArgs} (hs : SlotsKept svc s)
    (hc : Cmd.Proper svc s.enqueued (.redis (.fetchNextMessageInQueueAndMove a)))
    (hh : (fetchNextMessageInQueueAndMove a s.redis).2.messages id = some h) :
    Slotted svc (s.exec (.fetchNextMessageInQueueAndMove a) i).2 id h := by
  have hstore : (s.exec (.fetchNextMessageInQueueAndMove a) i).2.redis =
      (fetchNextMessageInQueueAndMove a s.redis).2 := rfl
  obtain ⟨node, plugin, hplugin, hsrc, hdest, hstatus, -, hslot⟩ := hc
  rcases fetch_cases a s.redis with he | he | ⟨m, rest, hp, ⟨-, he⟩ | ⟨-, he⟩ | ⟨g, t, hg, -, he⟩⟩ <;>
    rw [he] at hh hstore
  · exact (hs.slots id h hh).frame (fun p hp => by rwa [hstore] at hp) fun k => by rw [hstore]
  · exact (hs.slots id h hh).frame (fun p hp => by rwa [hstore] at hp) fun k => by rw [hstore]; rfl
  · rw [popSource_messages] at hh
    refine (hs.slots id h hh).frame (fun p hp' => ?_) fun k => by
      rw [hstore, popSource_indexes.rateLimits]
    rw [hstore] at hp'
    exact ((mem_popSource hp).mp hp').1
  · rw [popSource_messages] at hh
    refine (hs.slots id h hh).frame (fun p hp' => ?_) fun k => by
      rw [hstore, popSource_indexes.rateLimits]
    rw [hstore] at hp'
    exact ((mem_popSource hp).mp hp').1
  · have hlimits : ∀ l, id ∈ (s.exec (.fetchNextMessageInQueueAndMove a) i).2.redis.rateLimits l ↔
        (id = m ∧ a.concurrencyRateLimitKey = some l) ∨ id ∈ s.redis.rateLimits l := by
      intro l
      rw [hstore, mem_pickClaimed_rateLimits, popSource_indexes.rateLimits]
    have hqueues : ∀ p, id ∈ (s.exec (.fetchNextMessageInQueueAndMove a) i).2.redis.queues p ↔
        (id ∈ s.redis.queues p ∧ (id = m → p ≠ a.sourceQueue)) ∨ (id = m ∧ p = .ns) := by
      intro p
      rw [hstore, mem_pickClaimed, mem_popSource hp, hdest]
    rw [pickClaimed_messages (by rw [popSource_messages, hg]), popSource_messages] at hh
    rcases update_some_cases hh with ⟨rfl, rfl⟩ | ⟨hne, hh⟩
    · have hm : id ∈ s.redis.queues (.ready node) := hsrc ▸ (SortedSet.mem_popMin hp).mpr (.inl rfl)
      have hold := hs.slots id g hg
      have hkey : g.concurrencyRateLimitKey = none := hold.waiting (.inl (hold.placed _ hm))
      have hnew : (pickedHash a g).concurrencyRateLimitKey = a.concurrencyRateLimitKey := by
        simp [pickedHash, hkey]
      have hflies : ¬ (pickedHash a g).Waits := by
        simp [MessageHash.Waits, pickedHash, hstatus]
      have hns : ∀ p, id ∈ (s.exec (.fetchNextMessageInQueueAndMove a) i).2.redis.queues p →
          p = .ns := by
        intro p hp'
        rcases (hqueues p).mp hp' with ⟨hp', hne⟩ | ⟨-, hp'⟩
        · exact absurd ((hs.placement.single _ _ _ hp' hm).trans hsrc.symm) (hne rfl)
        · exact hp'
      refine ⟨fun p hp' => ?_, fun node' hp' => ?_, fun k => ?_, fun hw => absurd hw hflies,
        fun _ node' plugin' max hh' hp' ha => ?_⟩
      · rw [hns p hp']
        simp [pickedHash, hstatus, QueueKey.status]
      · exact absurd (hns _ hp') fun he => by cases he
      · rw [hlimits, hnew, hold.held k, hkey]
        simp
      · have hhome : g.home svc = some (.ready node') := (home_of_immutable rfl).symm.trans hh'
        rw [hold.homed node hm] at hhome
        cases hhome
        rw [hplugin] at hp'
        cases hp'
        rw [ha] at hslot
        rw [hnew]
        exact hslot.1
    · refine (hs.slots id h hh).frame (fun p hp' => ?_) fun k => ?_
      · rcases (hqueues p).mp hp' with hp' | ⟨e, -⟩
        · exact hp'.1
        · exact absurd e hne
      · rw [hlimits]
        simp [hne]

/-- A message that enters retry gives its slot back. -/
theorem slots_enterRetry {a : EnterRetryMulti} (hs : SlotsKept svc s)
    (hst : Steady (.enterRetry a) s) (hstands : HashStands (.enterRetry a) s)
    (hh : (enterRetryMulti a s.redis).2.messages id = some h) :
    Slotted svc (s.exec (.enterRetry a) i).2 id h := by
  have hlimits : ∀ l, id ∈ (s.exec (.enterRetry a) i).2.redis.rateLimits l ↔
      id ∈ s.redis.rateLimits l ∧ (id = a.messageId → a.concurrencyRateLimitKey ≠ some l) :=
    fun l => mem_enterRetry_rateLimits
  rw [enterRetry_messages] at hh
  rcases update_some_cases hh with ⟨rfl, rfl⟩ | ⟨hne, hh⟩
  · obtain ⟨g, hg⟩ := Option.ne_none_iff_exists'.mp hstands
    obtain ⟨hm, hkey⟩ := hst
    rw [hg, Option.bind_some] at hkey
    rw [hg, Option.getD_some]
    have hold := hs.slots _ g hg
    have hretry : ∀ p, a.messageId ∈ (s.exec (.enterRetry a) i).2.redis.queues p → p = .retry := by
      intro p hp
      rcases mem_enterRetry hp with ⟨hp, hne⟩ | ⟨-, hp⟩
      · exact absurd (hs.placement.single _ _ _ hp hm) (hne rfl)
      · exact hp
    have hnone : (retryHash a g).concurrencyRateLimitKey = none := by
      unfold retryHash
      simp only
      split
      next he => exact hkey.symm.trans he
      next => rfl
    refine ⟨fun p hp => ?_, fun node hp => ?_, fun k => ?_, fun _ => hnone, fun hw => ?_⟩
    · rw [hretry p hp]
      rfl
    · exact absurd (hretry _ hp) nofun
    · rw [hlimits, hold.held k, hnone, hkey]
      simp
    · exact absurd (.inr rfl) hw
  · refine (hs.slots id h hh).frame (fun p hp => ?_) fun k => ?_
    · rcases mem_enterRetry hp with hp | ⟨e, -⟩
      · exact hp.1
      · exact absurd e hne
    · rw [hlimits]
      simp [hne]

/-- A sweep takes out messages that are not stored. -/
def SweepsDead (c : RedisCmd) (s : Store) : Prop :=
  match c with
  | .sremRateLimit _ ids => ∀ id ∈ ids, s.redis.messages id = none
  | _ => True

/-- Every proper command keeps the slots, if a retry finds the message as it read it
and a sweep meets no stored one. -/
theorem slotsKept_exec (hs : SlotsKept svc s) (hprov : Provenance s)
    (hc : Cmd.Proper svc s.enqueued (.redis c)) (hst : Steady c s) (hstands : HashStands c s)
    (hdead : SweepsDead c s) (hf : c.Fresh i s) : SlotsKept svc (s.exec c i).2 where
  placement := by
    refine placement_exec hs.placement ?_ hf
    cases c with
    | enterRetry a => exact .inl hst.1
    | _ => trivial
  phantomless := noPhantom_exec hs.phantomless hstands hf
  named _ _ hid := limited_named_exec hs hid
  capped _ _ _ hp ha := capped_exec hs hc hp ha
  slots id h hh := by
    cases c with
    | enqueueDeviceMessage dto q => exact slots_enqueue hs hprov (hf rfl).2 hc hh
    | moveMessageBetweenQueues a => exact slots_move hs hprov hc hh
    | fetchNextMessageInQueueAndMove a => exact slots_fetch hs hc hh
    | enterRetry a => exact slots_enterRetry hs hst hstands hh
    | removeMessageFromQueue q m =>
      exact (hs.slots id h hh).frame (fun p hp => (mem_zrem.mp hp).1) fun k => Iff.rfl
    | messageFullCleanup m qs =>
      simp only [Store.exec, RedisCmd.run, cleanup_messages] at hh
      obtain ⟨hne, hh⟩ := update_none_cases hh
      refine (hs.slots id h hh).frame (fun p hp => (mem_cleanup.mp hp).1) fun k => ?_
      exact mem_cleanup_rateLimits.trans (and_iff_left fun e => absurd e hne)
    | zaddXx q score m =>
      cases score with
      | none => exact (hs.slots id h hh).frame (fun p hp => hp) fun k => Iff.rfl
      | some k =>
        refine (hs.slots id h hh).frame (fun p hp => ?_) fun k => Iff.rfl
        rcases mem_update.mp hp with ⟨rfl, hp⟩ | ⟨-, hp⟩
        · exact SortedSet.mem_rescore.mp hp
        · exact hp
    | lockQueueForTimeMs q ms =>
      obtain ⟨locks, hlocks⟩ := lockQueue_locks q ms s.redis
      have hstore : (s.exec (.lockQueueForTimeMs q ms) i).2.redis = { s.redis with locks := locks } :=
        hlocks
      rw [hstore] at hh
      refine (hs.slots id h hh).frame (fun p hp => ?_) fun k => by rw [hstore]
      rwa [hstore] at hp
    | sremRateLimit k ids =>
      simp only [Store.exec, RedisCmd.run, validateAndClean_messages] at hh
      refine (hs.slots id h hh).frame (fun p hp => ?_) fun l => ?_
      · rwa [← validateAndClean_queues k ids]
      · refine mem_validateAndClean.trans (and_iff_left fun hid => ?_)
        rw [hdead id hid] at hh
        cases hh
    | _ => exact (hs.slots id h hh).frame (fun p hp => hp) fun k => Iff.rfl

theorem slotsKept_disturb (hs : SlotsKept svc s) (d : Disturbance) : SlotsKept svc (s.disturb d) where
  placement := placement_disturb d hs.placement
  phantomless := noPhantom_disturb d hs.phantomless
  named := by cases d <;> exact hs.named
  capped := by cases d <;> exact hs.capped
  slots id h hh := by
    cases d with
    | expireMessage m =>
      exact (hs.slots id h (update_none_cases hh).2).frame (fun p hp => hp) fun k => Iff.rfl
    | _ => exact (hs.slots id h hh).frame (fun p hp => hp) fun k => Iff.rfl

end DeviceMessaging
