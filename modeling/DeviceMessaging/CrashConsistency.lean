import DeviceMessaging.Debts
import DeviceMessaging.Reach
import DeviceMessaging.ReadyOrder

namespace DeviceMessaging

open Effect

variable {svc : Service} {weather : Weather} {x y : Process} {s : Store} {c : RedisCmd}
  {i id : MessageId} {q : QueueKey}

def Store.Stored (s : Store) (id : MessageId) : Prop :=
  s.redis.messages id ≠ none

/-- Were the command never executed, no message would be lost. -/
def Dispensable (svc : Service) (c : RedisCmd) (s : Store) : Prop :=
  match c with
  | .saddDistribute q => ∀ id, id ∈ s.redis.queues q → s.Stored id → Finds svc s id
  | .messageFullCleanup m _ => s.Stored m.id → Finds svc s m.id
  | _ => True

/-- The message is in a scanned queue other than that one. -/
def FoundElsewhere (svc : Service) (s : Store) (q : QueueKey) (id : MessageId) : Prop :=
  ∃ p, p ≠ q ∧ id ∈ s.redis.queues p ∧ Scanned svc s p

/-- Were the command the last of its handler, no message would be lost by it. -/
def Harmless (svc : Service) (c : RedisCmd) (s : Store) : Prop :=
  match c with
  | .removeMessageFromQueue q id => s.Stored id → id ∈ s.redis.queues q → FoundElsewhere svc s q id
  | .moveMessageBetweenQueues a => ∀ node, a.destinationQueue = .ready node → s.Stored a.messageId →
      a.messageId ∈ s.redis.queues a.sourceQueue →
      .ready node ∈ s.redis.queuesToDistributeFrom ∨
        FoundElsewhere svc s a.sourceQueue a.messageId
  | _ => True

/-- No step cuts a handler off between taking a message out of the scanned queues
and what it does next; what a drain takes for an orphan is one. -/
def Sheltered (svc : Service) (x : Process) (a : Choice Handler Oracle Disturbance) : Prop :=
  match a with
  | .crash => ∀ i h c, x.waiting i = some (h, .redis c) → Dispensable svc c x.world.store
  | .turn i o => ∀ h c, x.waiting i = some (h, .redis c) →
      (o.fault = some .refused → Dispensable svc c x.world.store) ∧
      (o.fault = some .lost → Harmless svc c x.world.store) ∧
      (h.claims = false → ∀ q id, c = .removeMessageFromQueue q id → Harmless svc c x.world.store)
  | _ => True

/-- Some handler waits on that command. -/
def Process.Awaits (x : Process) (c : RedisCmd) : Prop :=
  ∃ i h, x.waiting i = some (h, .redis c)

/-- The message is found, or the handler that took it out of the scanned queues is
about to purge it or to have its ready queue scanned. -/
def InHand (svc : Service) (x : Process) (id : MessageId) : Prop :=
  Finds svc x.world.store id ∨
    (∃ m qs, x.Awaits (.messageFullCleanup m qs) ∧ m.id = id) ∨
    ∃ node, x.Awaits (.saddDistribute (.ready node)) ∧ id ∈ x.world.store.redis.queues (.ready node)

/-- No stored message is lost. -/
def NoneLost (svc : Service) (x : Process) : Prop :=
  ∀ id, x.world.store.Stored id → InHand svc x id

/-- No handler has anything left to do. -/
def Process.Idle (x : Process) : Prop :=
  ∀ i, x.waiting i = none

theorem finds_of_member {node : AdmissionNode} (hid : id ∈ s.redis.queues (.ready node))
    (hq : .ready node ∈ s.redis.queuesToDistributeFrom) : Finds svc s id :=
  ⟨.ready node, hid, .inr ⟨⟨node, rfl⟩, hq⟩⟩

/-- What becomes of a member of a scanned queue with a command: found still, claimed
from that queue, or requeued from it. -/
theorem scanned_exec (hc : Cmd.Proper svc s.enqueued (.redis c)) (hq : id ∈ s.redis.queues q)
    (hscan : Scanned svc s q) (hlive : (s.exec c i).2.Stored id) :
    Finds svc (s.exec c i).2 id ∨ c = .removeMessageFromQueue q id ∨
      ∃ node, RequeuedFrom svc s c id q node ∧
        id ∈ (s.exec c i).2.redis.queues (.ready node) := by
  rcases member_exec hc hq hlive with hq' | ⟨p, hp, hq'⟩ | hz | hreq
  · left
    rcases hscan with hstage | ⟨⟨node, rfl⟩, hset⟩
    · exact ⟨q, hq', .inl hstage⟩
    · exact finds_of_member hq' (distribute_exec hc hset ⟨id, hq'⟩)
  · exact .inl ⟨p, hq', .inl hp⟩
  · exact .inr (.inl hz)
  · exact .inr (.inr hreq)

/-- A member is not lost with a command that is harmless. -/
theorem harmless_exec (hc : Cmd.Proper svc s.enqueued (.redis c)) (hq : id ∈ s.redis.queues q)
    (hstored : s.Stored id) (hlive : (s.exec c i).2.Stored id) (hh : Harmless svc c s)
    (htaken : c = .removeMessageFromQueue q id ∨ ∃ node, RequeuedFrom svc s c id q node ∧
      id ∈ (s.exec c i).2.redis.queues (.ready node)) : Finds svc (s.exec c i).2 id := by
  rcases htaken with rfl | ⟨node, ⟨⟨a, rfl, rfl, rfl, hdest⟩, -, -⟩, hready⟩
  · obtain ⟨p, hne, hp, hscan⟩ := hh hstored hq
    rcases scanned_exec hc hp hscan hlive with hf | hz | ⟨node, ⟨⟨a, ha, -⟩, -⟩, -⟩
    · exact hf
    · cases hz
      exact absurd rfl hne
    · cases ha
  · rcases hh node hdest hstored hq with hset | ⟨p, hne, hp, hscan⟩
    · exact finds_of_member hready (distribute_exec hc hset ⟨_, hready⟩)
    · rcases scanned_exec hc hp hscan hlive with hf | hz | ⟨node', ⟨⟨a', ha, -, hsrc, -⟩, -⟩, -⟩
      · exact hf
      · cases hz
      · cases ha
        exact absurd hsrc.symm hne

/-- A command another handler waits on is still waited on after a turn. -/
theorem awaits_turn {o : Oracle} {n : Nat} {h : Handler} {c' : Cmd}
    (hy : (engine svc weather).next (.turn n o) x = some y) (hn : x.waiting n = some (h, c'))
    (hc : x.Awaits c) : y.Awaits c ∨ c' = .redis c := by
  obtain ⟨j, hj, hwait⟩ := hc
  by_cases e : j = n
  · subst e
    rw [hn] at hwait
    cases hwait
    exact .inr rfl
  · refine .inl ⟨j, hj, System.waiting_next hy hwait (fun o' he => ?_) (fun he => nomatch he)⟩
    cases he
    exact e rfl

/-- A stored message whose member was taken by the command of a turn is in the hands
of the handler. -/
theorem taken_inHand (hb : Booked x) (hc : Commissioned svc x) {n : Nat} {o : Oracle}
    (hs : Sheltered svc x (.turn n o)) (hy : (engine svc weather).next (.turn n o) x = some y)
    {h : Handler} (hn : x.waiting n = some (h, .redis c))
    (hstore : y.world.store = (x.world.store.exec c o.id).2) (hfault : o.fault ≠ some .refused)
    (hq : id ∈ x.world.store.redis.queues q) (hstored : x.world.store.Stored id)
    (hlive : y.world.store.Stored id)
    (htaken : c = .removeMessageFromQueue q id ∨
      ∃ node, RequeuedFrom svc x.world.store c id q node ∧
        id ∈ (x.world.store.exec c o.id).2.redis.queues (.ready node)) : InHand svc y id := by
  have hproper := hc.proper hn
  obtain ⟨-, hlost, hscrub⟩ := hs h c hn
  have hharmless : Harmless svc c x.world.store → InHand svc y id := by
    intro hh
    left
    rw [hstore] at hlive ⊢
    exact harmless_exec hproper hq hstored hlive hh htaken
  by_cases hl : o.fault = some .lost
  · exact hharmless (hlost hl)
  obtain ⟨h', c', r, hn', hr, hdebt⟩ := hb.settles hy
  rw [hn] at hn'
  cases hn'
  obtain ⟨-, ⟨-, hrep, -⟩ | ⟨ho, -, -⟩ | ⟨ho, -, -⟩⟩ := execRedis_cases hr
  · rcases htaken with rfl | ⟨node, hreq, hready⟩
    · by_cases hclaims : h.claims = true
      · have hafter : Debt.after h.claims (.redis (.removeMessageFromQueue q id)) r =
            .purge id := by
          subst hrep
          simp [Store.exec, RedisCmd.run, Debt.after, hq, hclaims]
        rw [hafter] at hdebt
        rcases hdebt with he | ⟨c', hwait, m, qs, rfl, hm⟩
        · cases he
        · exact .inr (.inl ⟨m, qs, ⟨n, h, hwait⟩, hm⟩)
      · exact hharmless (hscrub (by simpa using hclaims) q id rfl)
    · obtain ⟨⟨a, rfl, rfl, rfl, hdest⟩, -, -⟩ := hreq
      have hok : (moveMessageBetweenQueues a x.world.store.redis).1 = .ok true := by
        rcases move_cases a x.world.store.redis with ⟨hn, -⟩ | ⟨-, hm, -⟩ | ⟨-, hk, -⟩ | ⟨-, _, _, -, -, he⟩
        · exact absurd hq hn
        · exact absurd hm hstored
        · rcases hproper with ⟨_, _, _, -, -, -, -, -, hscore⟩ | ⟨_, -, -, -, -, hscore⟩
          · exact absurd hk hscore
          · rw [hscore] at hk
            cases hk
        · rw [he]
      have hafter : Debt.after h.claims (.redis (.moveMessageBetweenQueues a)) r =
          .distribute node := by
        subst hrep
        simp only [Store.exec, RedisCmd.run, hok, Debt.after, hdest]
      rw [hafter] at hdebt
      rcases hdebt with he | ⟨c', hwait, rfl⟩
      · cases he
      · exact .inr (.inr ⟨node, ⟨n, h, hwait⟩, hstore ▸ hready⟩)
  · exact absurd ho hfault
  · exact absurd ho hl

/-- A command executed in its turn loses no stored message. -/
theorem executed_inHand (hb : Booked x) (hc : Commissioned svc x) (hnone : NoneLost svc x) {n : Nat}
    {o : Oracle} (hs : Sheltered svc x (.turn n o))
    (hy : (engine svc weather).next (.turn n o) x = some y)
    {h : Handler} (hn : x.waiting n = some (h, .redis c))
    (hstore : y.world.store = (x.world.store.exec c o.id).2) (hfault : o.fault ≠ some .refused) :
    NoneLost svc y := by
  intro id hlive
  have hproper := hc.proper hn
  by_cases hstored : x.world.store.Stored id
  · rcases hnone id hstored with ⟨q, hq, hscan⟩ | ⟨m, qs, hawait, rfl⟩ | ⟨node, hawait, hq⟩
    · rcases scanned_exec hproper hq hscan (hstore ▸ hlive) with hf | htaken
      · exact .inl (hstore ▸ hf)
      · exact taken_inHand hb hc hs hy hn hstore hfault hq hstored hlive htaken
    · rcases awaits_turn hy hn hawait with hawait | he
      · exact .inr (.inl ⟨m, qs, hawait, rfl⟩)
      · cases he
        refine absurd ?_ hlive
        rw [hstore]
        simp [Store.exec, RedisCmd.run, cleanup_messages]
    · rcases awaits_turn hy hn hawait with hawait | he
      · rcases member_exec hproper hq (hstore ▸ hlive) with hq' | ⟨p, hp, hq'⟩ | htaken
        · exact .inr (.inr ⟨node, hawait, hstore ▸ hq'⟩)
        · exact .inl ⟨p, hstore ▸ hq', .inl hp⟩
        · exact taken_inHand hb hc hs hy hn hstore hfault hq hstored hlive htaken
      · cases he
        left
        rw [hstore]
        exact finds_of_member hq (MemberSet.mem_insert.mpr (.inl rfl))
  · left
    rw [hstore] at hlive ⊢
    exact revived_exec hproper (not_not.mp hstored) hlive

/-- A turn that executes no command loses none either. -/
theorem unexecuted_inHand (hnone : NoneLost svc x) {n : Nat} {o : Oracle}
    (hs : Sheltered svc x (.turn n o)) (hy : (engine svc weather).next (.turn n o) x = some y)
    {h : Handler} {c' : Cmd} (hn : x.waiting n = some (h, c'))
    (hstore : y.world.store = x.world.store)
    (hfault : ∀ c, c' = .redis c → o.fault = some .refused) : NoneLost svc y := by
  intro id hlive
  rw [hstore] at hlive
  have hdisp : ∀ c, c' = .redis c → Dispensable svc c x.world.store := by
    rintro c rfl
    exact (hs h c hn).1 (hfault c rfl)
  rcases hnone id hlive with hf | ⟨m, qs, hawait, rfl⟩ | ⟨node, hawait, hq⟩
  · exact .inl (hstore ▸ hf)
  · rcases awaits_turn hy hn hawait with hawait | he
    · exact .inr (.inl ⟨m, qs, hawait, rfl⟩)
    · exact .inl (hstore ▸ hdisp _ he hlive)
  · rcases awaits_turn hy hn hawait with hawait | he
    · exact .inr (.inr ⟨node, hawait, hstore ▸ hq⟩)
    · exact .inl (hstore ▸ hdisp _ he id hq hlive)

/-- A message in hand stays so while no handler takes a turn. -/
theorem inHand_keeps {a : Choice Handler Oracle Disturbance}
    (hy : (engine svc weather).next a x = some y) (hturn : ∀ n o, a ≠ .turn n o)
    (hcrash : a ≠ .crash) (hq : y.world.store.redis.queues = x.world.store.redis.queues)
    (hset : y.world.store.redis.queuesToDistributeFrom =
      x.world.store.redis.queuesToDistributeFrom)
    (hid : InHand svc x id) : InHand svc y id := by
  have hawait : ∀ c, x.Awaits c → y.Awaits c := by
    rintro c ⟨j, h, hwait⟩
    exact ⟨j, h, System.waiting_next hy hwait (fun o => hturn j o) hcrash⟩
  rcases hid with hf | ⟨m, qs, ha, rfl⟩ | ⟨node, ha, hid⟩
  · left
    unfold Finds Scanned at hf ⊢
    rwa [hq, hset]
  · exact .inr (.inl ⟨m, qs, hawait _ ha, rfl⟩)
  · exact .inr (.inr ⟨node, hawait _ ha, hq ▸ hid⟩)

theorem crash_store (hy : (engine svc weather).next .crash x = some y) :
    y.world.store = x.world.store ∧ y.threads = [] := by
  rcases System.next_cases hy with ⟨_, _, e, -⟩ | ⟨_, _, _, _, _, _, _, e, -⟩ | ⟨_, _, e, -⟩ |
    ⟨w, -, hw, rfl⟩
  · cases e
  · cases e
  · cases e
  · simp only [engine] at hw
    split at hw
    next =>
      cases hw
      exact ⟨rfl, rfl⟩
    next => cases hw

/-- What is in hand at a crash is found, if every pending command can be done without. -/
theorem crash_finds (hs : ∀ i h c, x.waiting i = some (h, .redis c) →
    Dispensable svc c x.world.store) (hstored : x.world.store.Stored id) (hid : InHand svc x id) :
    Finds svc x.world.store id := by
  rcases hid with hf | ⟨m, qs, ⟨j, h, hwait⟩, rfl⟩ | ⟨node, ⟨j, h, hwait⟩, hid⟩
  · exact hf
  · exact hs j h _ hwait hstored
  · exact hs j h _ hwait id hid hstored

theorem noneLost_next {a : Choice Handler Oracle Disturbance} (hb : Booked x)
    (hc : Commissioned svc x) (hnone : NoneLost svc x) (ha : Sheltered svc x a)
    (hy : (engine svc weather).next a x = some y) : NoneLost svc y := by
  cases a with
  | start h =>
    have hstore : y.world.store = x.world.store := by
      rcases store_next hy with he | ⟨_, _, _, _, e, -⟩ | ⟨_, e, -⟩
      · exact he
      · cases e
      · cases e
    intro id hid
    rw [hstore] at hid
    exact inHand_keeps hy (fun _ _ he => by cases he) (fun he => by cases he) (by rw [hstore]) (by rw [hstore]) (hnone id hid)
  | turn n o =>
    obtain ⟨h, c, r, hn, hr, -⟩ := hb.settles hy
    rcases respond_store hr with hstore | ⟨c', rfl, -, -⟩
    · cases c with
      | redis c =>
        obtain ⟨-, ⟨ho, -, hexec⟩ | ⟨ho, -, hexec⟩ | ⟨ho, -, hexec⟩⟩ := execRedis_cases hr
        · exact executed_inHand hb hc hnone ha hy hn hexec (by simp [ho])
        · exact unexecuted_inHand hnone ha hy hn hexec fun _ _ => ho
        · exact executed_inHand hb hc hnone ha hy hn hexec (by simp [ho])
      | _ => exact unexecuted_inHand hnone ha hy hn hstore fun _ e => by cases e
    · obtain ⟨-, ⟨ho, -, hexec⟩ | ⟨ho, -, hexec⟩ | ⟨ho, -, hexec⟩⟩ := execRedis_cases hr
      · exact executed_inHand hb hc hnone ha hy hn hexec (by simp [ho])
      · exact unexecuted_inHand hnone ha hy hn hexec fun _ _ => ho
      · exact executed_inHand hb hc hnone ha hy hn hexec (by simp [ho])
  | disturb d =>
    have hstore : y.world.store = x.world.store.disturb d := by
      rcases store_next hy with he | ⟨_, _, _, _, e, -⟩ | ⟨_, e, he⟩
      · rcases System.next_cases hy with ⟨_, _, e, -⟩ | ⟨_, _, _, _, _, _, _, e, -⟩ |
          ⟨d', w, e, hw, rfl⟩ | ⟨_, e, -⟩
        · cases e
        · cases e
        · cases e
          simp only [engine] at hw
          split at hw <;> cases hw
          rfl
        · cases e
      · cases e
      · cases e
        exact he
    intro id hid
    refine inHand_keeps hy (fun _ _ he => by cases he) (fun he => by cases he) ?_ ?_ (hnone id ?_)
    · rw [hstore]
      cases d <;> rfl
    · rw [hstore]
      cases d <;> rfl
    · rw [hstore] at hid
      intro he
      apply hid
      cases d with
      | expireMessage m =>
        simp only [Store.disturb, Disturbance.apply, Redis.delMessage]
        by_cases hm : id = m
        · subst hm
          simp
        · simpa [Function.update_of_ne hm] using he
      | _ => exact he
  | crash =>
    obtain ⟨hstore, -⟩ := crash_store hy
    intro id hid
    rw [hstore] at hid
    exact .inl (hstore ▸ crash_finds ha hid (hnone id hid))

theorem reached_noneLost (hx : Reached svc weather (Sheltered svc) x) : NoneLost svc x := by
  have hall : Reached svc weather (Sheltered svc) x ∧ NoneLost svc x := by
    refine hx.invariant (I := fun x => Reached svc weather (Sheltered svc) x ∧ NoneLost svc x)
      ⟨.init, fun id hid => absurd rfl hid⟩ ?_
    rintro x y a ⟨hx, hnone⟩ ha hy
    exact ⟨.step a hx ha hy, noneLost_next (reached_booked hx) (reached_commissioned hx) hnone ha hy⟩
  exact hall.2

/-- A ready queue with members is in the set, or a handler is about to add it. -/
def Distributed (x : Process) : Prop :=
  ∀ node id, id ∈ x.world.store.redis.queues (.ready node) →
    .ready node ∈ x.world.store.redis.queuesToDistributeFrom ∨
      x.Awaits (.saddDistribute (.ready node))

/-- A member a command leaves in a ready queue was there, or its queue is in the set,
or the command requeued it. -/
theorem ready_exec {node : AdmissionNode} (hc : Cmd.Proper svc s.enqueued (.redis c))
    (hid : id ∈ (s.exec c i).2.redis.queues (.ready node)) :
    id ∈ s.redis.queues (.ready node) ∨
      .ready node ∈ (s.exec c i).2.redis.queuesToDistributeFrom ∨
      ∃ a, c = .moveMessageBetweenQueues a ∧ a.destinationQueue = .ready node ∧
        (moveMessageBetweenQueues a s.redis).1 = .ok true := by
  cases c with
  | enqueueDeviceMessage dto p =>
    rcases mem_enqueue.mp hid with hid | ⟨-, rfl⟩
    · exact .inl hid
    · exact .inr (.inl (enqueue_distribute.mpr (.inl rfl)))
  | moveMessageBetweenQueues a =>
    simp only [Store.exec, RedisCmd.run] at hid
    rcases move_cases a s.redis with ⟨-, he⟩ | ⟨-, -, he⟩ | ⟨-, -, he⟩ | ⟨-, h, k, -, -, he⟩ <;>
      rw [he] at hid
    · exact .inl hid
    · exact .inl (mem_zrem.mp hid).1
    · exact .inl (mem_zrem.mp hid).1
    · rcases mem_moveClaimed.mp hid with hid | ⟨-, hdest⟩
      · exact .inl (mem_zrem.mp hid).1
      · exact .inr (.inr ⟨a, rfl, hdest.symm, by rw [he]⟩)
  | fetchNextMessageInQueueAndMove a =>
    obtain ⟨_, _, -, -, hdest, -⟩ := hc
    rcases mem_fetch a s.redis with he | ⟨m, -, hall⟩
    · exact .inl (he ▸ hid)
    · rcases hall id _ hid with ⟨hid, -⟩ | ⟨-, he⟩
      · exact .inl hid
      · rw [hdest] at he
        cases he
  | enterRetry a =>
    rcases mem_enterRetry hid with ⟨hid, -⟩ | ⟨-, he⟩
    · exact .inl hid
    · cases he
  | removeMessageFromQueue p x => exact .inl (mem_zrem.mp hid).1
  | messageFullCleanup m ps => exact .inl (mem_cleanup.mp hid).1
  | zaddXx p score x =>
    obtain ⟨stage, pluginId, rfl⟩ := hc
    cases score with
    | none => exact .inl hid
    | some k =>
      simp only [Store.exec, RedisCmd.run, Redis.setQueue, mem_update] at hid
      rcases hid with ⟨he, -⟩ | ⟨-, hid⟩
      · exact absurd he.symm (stageKeyFor_ne_ready _ _ _)
      · exact .inl hid
  | lockQueueForTimeMs p ms =>
    left
    simp only [Store.exec, RedisCmd.run, lockQueueForTimeMs] at hid
    split at hid <;> exact hid
  | sremRateLimit k ids =>
    left
    simp only [Store.exec, RedisCmd.run, validateAndClean_queues] at hid
    exact hid
  | _ => exact .inl hid

theorem distributed_turn (hb : Booked x) (hc : Commissioned svc x) (hd : Distributed x) {n : Nat}
    {o : Oracle} (hy : (engine svc weather).next (.turn n o) x = some y) (ho : o.fault = none) :
    Distributed y := by
  obtain ⟨h, c, r, hn, hr, hdebt⟩ := hb.settles hy
  cases c with
  | redis c =>
    obtain ⟨-, ⟨-, hrep, hexec⟩ | ⟨hf, -, -⟩ | ⟨hf, -, -⟩⟩ := execRedis_cases hr
    · intro node id hid
      rw [hexec] at hid ⊢
      have hproper := hc.proper hn
      rcases ready_exec hproper hid with hold | hset | ⟨a, rfl, hdest, hok⟩
      · rcases hd node id hold with hset | hawait
        · exact .inl (distribute_exec hproper hset ⟨id, hid⟩)
        · rcases awaits_turn hy hn hawait with hawait | he
          · exact .inr hawait
          · cases he
            exact .inl (MemberSet.mem_insert.mpr (.inl rfl))
      · exact .inl hset
      · have hafter : Debt.after h.claims (.redis (.moveMessageBetweenQueues a)) r =
            .distribute node := by
          subst hrep
          simp only [Store.exec, RedisCmd.run, hok, Debt.after, hdest]
        rw [hafter] at hdebt
        rcases hdebt with he | ⟨c', hwait, rfl⟩
        · cases he
        · exact .inr ⟨n, h, hwait⟩
    · simp [ho] at hf
    · simp [ho] at hf
  | _ =>
    rcases respond_store hr with hstore | ⟨c', he, -⟩
    · intro node id hid
      rw [hstore] at hid ⊢
      refine (hd node id hid).imp_right fun hawait => ?_
      rcases awaits_turn hy hn hawait with hawait | he
      · exact hawait
      · cases he
    · cases he

theorem distributed_next {a : Choice Handler Oracle Disturbance} (hcrash : weather.crashes = false)
    (hfaults : weather.faults = false) (hb : Booked x) (hc : Commissioned svc x)
    (hd : Distributed x) (hy : (engine svc weather).next a x = some y) : Distributed y := by
  have hkeeps : (∀ n o, a ≠ .turn n o) → a ≠ .crash →
      y.world.store.redis.queues = x.world.store.redis.queues →
      y.world.store.redis.queuesToDistributeFrom =
        x.world.store.redis.queuesToDistributeFrom → Distributed y := by
    intro hturn hncrash hq hset node id hid
    rw [hq] at hid
    rw [hset]
    refine (hd node id hid).imp_right ?_
    rintro ⟨j, h, hwait⟩
    exact ⟨j, h, System.waiting_next hy hwait (fun o => hturn j o) hncrash⟩
  rcases System.next_cases hy with ⟨h, w, rfl, hw, rfl⟩ | ⟨n, o, h, c, k, r, w, rfl, -, hr, -⟩ |
    ⟨d, w, rfl, hw, rfl⟩ | ⟨w, rfl, hw, -⟩
  · obtain ⟨-, hstore⟩ := startHandler_proper hc.tasks hw
    exact hkeeps (fun _ _ he => by cases he) (fun he => by cases he) (by rw [hstore]) (by rw [hstore])
  · refine distributed_turn hb hc hd hy ?_
    simp only [engine, oracleAllowed, hfaults, Bool.or_false] at hr
    split at hr
    next ho => simpa using ho
    next => cases hr
  · simp only [engine] at hw
    split at hw <;> cases hw
    exact hkeeps (fun _ _ he => by cases he) (fun he => by cases he) (by cases d <;> rfl) (by cases d <;> rfl)
  · simp only [engine, hcrash, Bool.false_eq_true, ↓reduceIte] at hw
    cases hw

theorem reached_distributed (hcrash : weather.crashes = false) (hfaults : weather.faults = false)
    (hx : Reached svc weather (fun _ _ => True) x) : Distributed x := by
  have hall : Reached svc weather (fun _ _ => True) x ∧ Distributed x := by
    refine hx.invariant
      (I := fun x => Reached svc weather (fun _ _ => True) x ∧ Distributed x)
      ⟨.init, fun node id hid => ?_⟩ ?_
    · cases hid
    · rintro x y a ⟨hx, hd⟩ - hy
      exact ⟨.step a hx trivial hy, distributed_next hcrash hfaults (reached_booked hx)
        (reached_commissioned hx) hd hy⟩
  exact hall.2

/-- In every run none of whose steps cuts a handler off between taking a message out
of the scanned queues and what it does next, a restart finds every stored message,
just when no handler is so cut off by the crash before it. Without crashes and
faults, a ready queue with members is in the set whenever no handler is at work. -/
theorem reached_recoverable :
    (∀ x y, Reached svc weather (Sheltered svc) x → (engine svc weather).next .crash x = some y →
      ((∀ id, y.world.store.Stored id → Finds svc y.world.store id) ↔
        ∀ i h c, x.waiting i = some (h, .redis c) → Dispensable svc c x.world.store)) ∧
    (weather.crashes = false → weather.faults = false →
      ∀ x, Reached svc weather (fun _ _ => True) x → x.Idle →
        ∀ node id, id ∈ x.world.store.redis.queues (.ready node) →
          .ready node ∈ x.world.store.redis.queuesToDistributeFrom) := by
  constructor
  · intro x y hx hy
    obtain ⟨hstore, -⟩ := crash_store hy
    rw [hstore]
    constructor
    · intro hall i h c _
      cases c with
      | saddDistribute q => exact fun id _ hid => hall id hid
      | messageFullCleanup m qs => exact fun hid => hall m.id hid
      | _ => trivial
    · exact fun hs id hid => crash_finds hs hid (reached_noneLost hx id hid)
  · intro hcrash hfaults x hx hidle node id hid
    rcases reached_distributed hcrash hfaults hx node id hid with hset | ⟨i, h, hwait⟩
    · exact hset
    · rw [hidle i] at hwait
      cases hwait

theorem idle_of_check (h : x.threads.all (fun t => t.2.pending.isNone) = true) : x.Idle := by
  intro i
  unfold Config.waiting
  cases ht : x.threads[i]? with
  | none => rfl
  | some t =>
    have hp := List.all_eq_true.mp h t (List.mem_of_getElem? ht)
    simp only [Option.isNone_iff_eq_none] at hp
    change (t.2.pending.bind fun c => some (t.1, c)) = none
    rw [hp]
    rfl

/-- A command stored before a crash is found after it, and its queue is in the set. -/
theorem enqueued_recoverable :
    (∃ x y, (engine vendorService { crashes := true }).next .crash x = some y ∧
      y.world.store.Stored sampleId ∧ Finds vendorService y.world.store sampleId) ∧
    ∃ x : Process, sampleQueue ∈ x.world.store.redis.queuesToDistributeFrom := by
  let x₁ : Process := ⟨[(.enqueue sampleCreate, handlerProgram vendorService (.enqueue sampleCreate))],
    .boot .empty⟩
  constructor
  · have hx₁ : Reached vendorService { crashes := true } (Sheltered vendorService) x₁ :=
      .step (.start (.enqueue sampleCreate)) .init trivial rfl
    have hplay : ((engine vendorService { crashes := true }).next (.turn 0 { id := sampleId }) x₁).any
        (fun x => x.threads.all (fun t => t.2.pending.isNone) &&
          (x.world.store.redis.messages sampleId).isSome) = true := by
      decide +kernel
    obtain ⟨x, hnext, hr⟩ := (Option.any_eq_true _ _).mp hplay
    simp only [Bool.and_eq_true] at hr
    have hwait : x₁.waiting 0 = some (.enqueue sampleCreate,
        .redis (.enqueueDeviceMessage sampleCreate sampleQueue)) := rfl
    have hx : Reached vendorService { crashes := true } (Sheltered vendorService) x := by
      refine .step (.turn 0 { id := sampleId }) hx₁ (fun h c hw => ?_) hnext
      rw [hwait] at hw
      cases hw
      exact ⟨(fun he => nomatch he), (fun he => nomatch he), fun _ q id he => nomatch he⟩
    refine ⟨x, ⟨[], .boot x.world.store⟩, rfl, ?_⟩
    have hstored : x.world.store.Stored sampleId := by
      obtain ⟨h, hh⟩ := Option.isSome_iff_exists.mp hr.2
      simp [Store.Stored, hh]
    refine ⟨hstored, (reached_recoverable.1 x _ hx rfl).mpr (fun i h c hw => ?_) sampleId hstored⟩
    rw [idle_of_check hr.1 i] at hw
    cases hw
  · obtain ⟨x, hx, hr⟩ := exists_reached vendorService {} (fun _ _ => true)
      [.start (.enqueue sampleCreate), .turn 0 { id := sampleId }]
      (fun x => x.threads.all (fun t => t.2.pending.isNone) &&
        decide (sampleId ∈ x.world.store.redis.queues sampleQueue))
      (fun _ _ _ => trivial) (by decide +kernel)
    simp only [Bool.and_eq_true] at hr
    exact ⟨x, reached_recoverable.2 rfl rfl x hx (idle_of_check hr.1) _ sampleId
      (of_decide_eq_true hr.2)⟩

/-- Nothing the engine looks at holds the message. -/
def lostFrom (svc : Service) (s : Store) (id : MessageId) : Bool :=
  (s.redis.messages id).isSome &&
    (enumerateStageKeys (pullPluginIds svc) ++ s.redis.queuesToDistributeFrom.members).all
      fun q => id ∉ s.redis.queues q

theorem lostFrom_sound (h : lostFrom svc s id = true) : s.Stored id ∧ ¬ Finds svc s id := by
  simp only [lostFrom, Bool.and_eq_true, List.all_eq_true, List.mem_append,
    decide_eq_true_eq] at h
  refine ⟨?_, ?_⟩
  · obtain ⟨g, hg⟩ := Option.isSome_iff_exists.mp h.1
    simp [Store.Stored, hg]
  · rintro ⟨q, hq, hstage | ⟨-, hset⟩⟩
    · exact h.2 q (.inl hstage) hq
    · exact h.2 q (.inr hset) hq

/-- A crash between the requeue of a retried command and the `SADD` of its ready queue
leaves the command in a queue nothing looks at. -/
theorem requeue_cut_loses :
    ¬ ∀ x y, Reached vendorService { crashes := true } (fun _ _ => True) x →
      (engine vendorService { crashes := true }).next .crash x = some y →
      ∀ id, y.world.store.Stored id → Finds vendorService y.world.store id := by
  obtain ⟨x, hx, hr⟩ := exists_reached vendorService { crashes := true } (fun _ _ => true)
    (retriedSend sampleCreate sampleMessage).dropLast
    (fun x => lostFrom vendorService x.world.store sampleId)
    (fun _ _ _ => trivial) (by decide +kernel)
  intro hall
  obtain ⟨hstored, hlost⟩ := lostFrom_sound hr
  exact hlost (hall x ⟨[], .boot x.world.store⟩ hx rfl sampleId hstored)

end DeviceMessaging
