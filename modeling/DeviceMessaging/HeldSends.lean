import DeviceMessaging.QueueTraffic
import DeviceMessaging.SendTokens

namespace DeviceMessaging

open Effect

/-- A handler whose view of a message is from before its pick. -/
def Work.Stale (g : Work) (id : MessageId) : Prop :=
  g = .busy id ∨ g = .missing id ∨ g = .claimed id

/-- Ingress, and the rows other than `ns` whose action acts for the message it loads. -/
def Handler.takesBesideNs (h : Handler) : Bool :=
  match h with
  | .ingress _ _ => true
  | .task (.drain queue _) => queue.stage ≠ .retry ∧ queue.stage ≠ .ns
  | _ => false

/-- No `ns` drain asks for a message between its pick and the registration of its send; a
message is picked that is in no other queue and that no handler has an older view of; and while
it is held, no other handler takes it up. -/
structure PicksAlone (x : Process) (ledger : WorkLedger)
    (a : Choice Handler Oracle Disturbance) : Prop where
  asked : ∀ i o h id slot, a = .turn i o → x.waiting i = some (h, .hasInFlightSend id) →
    ledger.holder id ≠ some (.window slot)
  picked : ∀ i o h args id rest, a = .turn i o →
    x.waiting i = some (h, .redis (.fetchNextMessageInQueueAndMove args)) →
    (x.world.store.redis.queues args.sourceQueue).popMin = some (id, rest) →
      (∀ q, id ∈ x.world.store.redis.queues q → q = args.sourceQueue) ∧
        ∀ j h' c, x.waiting j = some (h', c) → ¬ (ledger.work j).Stale id
  load : ∀ i o h id, a = .turn i o → x.waiting i = some (h, .redis (.hgetall id)) →
    h.takesBesideNs = true → ledger.holder id = none

/-- A held message is in `ns`, and its own send alone is about to take it out; a send is
started for a member of `ns`, and one at a time for a message. -/
structure HeldSends (x : Process) (ledger : WorkLedger) : Prop where
  inNs : ∀ id, ledger.holder id ≠ none → id ∈ x.world.store.redis.queues .ns
  kept : ∀ id, ledger.holder id ≠ none → ∀ j h c, x.waiting j = some (h, .redis c) →
    TakenOut id .ns c →
      ∃ p m token, h = .task (.send p m token) ∧ m.id = id ∧
        ledger.holder id = some (.tracked token)
  member : ∀ j h p m, x.waiting j = some (h, .sendOne p m) →
    m.id ∈ x.world.store.redis.queues .ns
  once : ∀ i j h h' p p' m m', x.waiting i = some (h, .sendOneResult p m) →
    x.waiting j = some (h', .sendOneResult p' m') → m.id = m'.id → i = j

/-- A message between its pick and the end of its send. -/
structure HeldInNs (svc : Service) (x : Process) (ledger : WorkLedger) (id : MessageId) : Prop where
  inNs : id ∈ x.world.store.redis.queues .ns
  only : ∀ q, id ∈ x.world.store.redis.queues q → q = .ns
  reads : ∃ message, readsAs id (x.world.store.redis.messages id) = some message ∧
    (owner svc message).isSome
  unseen : ∀ j h c, x.waiting j = some (h, c) → ¬ (ledger.work j).Stale id

/-- Every request that was enqueued is for a delivery plugin. -/
def Store.Homed (svc : Service) (s : Store) : Prop :=
  ∀ e ∈ s.enqueued, (svc.registry.delivery e.2.pluginId).isSome

/-- What holds throughout a run whose picks are alone. -/
structure HeldRun (svc : Service) (x : Process) (ledger : WorkLedger) : Prop where
  watched : Watched svc x ledger
  commissioned : Commissioned svc x
  queued : x.world.store.QueuesNamed
  homed : x.world.store.Homed svc
  tokens : TokensApart x
  held : ∀ id, ledger.holder id ≠ none → HeldInNs svc x ledger id
  windows : ∀ j h c id, x.waiting j = some (h, c) → ledger.work j = .picked id →
    ledger.holder id = some (.window j)
  sending : ∀ j h c id, x.waiting j = some (h, c) → ledger.work j = .sending id →
    ∃ p m token, h = .task (.send p m token) ∧ m.id = id ∧ ledger.holder id = some (.tracked token)
  due : ∀ p m token, Task.send p m token ∈ x.world.tasks →
    ledger.holder m.id = some (.tracked token)
  registered : ∀ id token, ledger.holder id = some (.tracked token) →
    x.world.inFlightSends id = some token
  settled : ∀ (j : Nat) p m token q, x.threads[j]? = some (.task (.send p m token), q) →
    ledger.work j ≠ .sending m.id → ledger.holder m.id ≠ some (.tracked token)

variable {svc : Service} {x y : Process} {ledger : WorkLedger} {h : Handler} {g : Work}
  {a : Choice Handler Oracle Disturbance} {id m : MessageId} {raw : Option MessageHash}
  {i : Nat} {o : Oracle} {w : World}

/-- Who is about to take a held message out of `ns` has its send in hand. -/
theorem HeldRun.takenOut (hx : HeldRun svc x ledger) {c : RedisCmd}
    (hw : x.waiting i = some (h, .redis c)) (hheld : ledger.holder id ≠ none)
    (ht : TakenOut id .ns c) : ledger.work i = .sending id := by
  have hallows := hx.watched.allows hw
  have hunseen := (hx.held id hheld).unseen i h _ hw
  cases ht with
  | moved he hq => exact he ▸ hallows hq.symm
  | picked hq =>
    obtain ⟨⟨node, hnode⟩, -, -⟩ := hallows
    cases hq.trans hnode
  | removed =>
    rcases hallows rfl with he | he
    · exact absurd (.inl he) hunseen
    · exact absurd (.inr (.inl he)) hunseen
  | retried he =>
    subst he
    rcases hallows with he | he
    · exact absurd (.inl he) hunseen
    · exact he
  | purged he =>
    subst he
    rcases hallows with (he | he) | he
    · exact absurd (.inl he) hunseen
    · exact he
    · exact absurd (.inr (.inr he)) hunseen

/-- And has it no more after that. -/
theorem after_takenOut {c : RedisCmd} {r : Reply (.redis c)} (ht : TakenOut id .ns c)
    (hallows : (works svc h).allows (.sending id) (.redis c)) :
    (Work.sending id).after svc h (.redis c) r = .free := by
  cases ht with
  | moved => cases r <;> rfl
  | picked hq =>
    obtain ⟨⟨node, hnode⟩, -, -⟩ := hallows
    cases hq.trans hnode
  | removed => rcases hallows rfl with he | he <;> cases he
  | retried => cases r <;> rfl
  | purged => cases r <;> rfl

/-- A command that leaves a held message in `ns` leaves its hash and puts it nowhere else. -/
theorem HeldRun.spared (hx : HeldRun svc x ledger) {c : RedisCmd}
    (hw : x.waiting i = some (h, .redis c)) (hheld : ledger.holder id ≠ none)
    (ht : ¬ TakenOut id .ns c) (hf : c.Fresh o.id x.world.store) :
    id ∈ (x.world.store.exec c o.id).2.redis.queues .ns ∧
      (∀ q, id ∈ (x.world.store.exec c o.id).2.redis.queues q → q = .ns) ∧
      (x.world.store.exec c o.id).2.redis.messages id = x.world.store.redis.messages id := by
  have hh := hx.held id hheld
  have hnamed := hx.queued id .ns hh.inNs
  have hallows := hx.watched.allows hw
  have hdrawn : ∀ dto q, c = .enqueueDeviceMessage dto q → id ≠ o.id := by
    rintro dto q rfl rfl
    exact (hf rfl).2 hnamed
  have hmove : ∀ args, c = .moveMessageBetweenQueues args →
      args.messageId ∈ x.world.store.redis.queues args.sourceQueue → args.messageId ≠ id := by
    rintro args rfl hs rfl
    exact ht (.moved rfl (hh.only _ hs).symm)
  have hpick : ∀ args, c = .fetchNextMessageInQueueAndMove args →
      id ∉ x.world.store.redis.queues args.sourceQueue := by
    rintro args rfl hs
    exact ht (.picked (hh.only _ hs).symm)
  refine ⟨(queues_leave hh.inNs).resolve_right ht, fun q hq => ?_, ?_⟩
  · rcases queues_enter hq with hq | hq
    · exact hh.only q hq
    · cases hq with
      | enqueued he => exact absurd he (hdrawn _ _ rfl)
      | moved he _ hs => exact absurd he.symm (hmove _ rfl (he ▸ hs))
      | picked _ hs => exact absurd hs (hpick _ rfl)
      | retried he _ => exact absurd (.retried he) ht
  · have hput : ∀ {m : MessageId} {v : Option MessageHash}, id ≠ m →
        Function.update x.world.store.redis.messages m v id =
          x.world.store.redis.messages id := fun hne => Function.update_of_ne hne _ _
    have hwrite := exec_hashWrite x.world.store c o.id
    generalize (x.world.store.exec c o.id).2.redis.messages = f at hwrite ⊢
    cases hwrite with
    | keep => rfl
    | enqueue => exact hput (hdrawn _ _ rfl)
    | move _ hs => exact hput fun he => hmove _ rfl hs he.symm
    | pick _ hs => exact hput fun he => hpick _ rfl (he ▸ hs)
    | retry => exact hput fun he => ht (.retried he)
    | purge => exact hput fun he => ht (.purged he)

/-- A row of `ns` that loads a message that reads and is owned is yet to ask for it. -/
theorem stale_load (hload : m = id → h.takesBesideNs = false)
    (hreads : m = id → ∃ message, readsAs m raw = some message ∧ (owner svc message).isSome)
    (hg : ¬ g.Stale id) : ¬ (g.load svc h m raw).Stale id := by
  have hother : m ≠ id → ∀ t : Work, (t = .busy m ∨ t = .missing m ∨ t = .loaded m) →
      ¬ t.Stale id := by
    rintro hne t ht hs
    rcases ht with rfl | rfl | rfl <;> rcases hs with he | he | he <;> cases he <;>
      exact hne rfl
  have hfree : ¬ Work.free.Stale id := by
    rintro (he | he | he) <;> cases he
  unfold Work.load
  split
  next queue now =>
    split
    next => exact hfree
    next hretry =>
      by_cases hid : m = id
      · obtain ⟨message, hm, howned⟩ := hreads hid
        have hns : queue.stage = .ns := by
          have hrow := hload hid
          unfold Handler.takesBesideNs at hrow
          by_contra hne
          exact absurd (of_decide_eq_false hrow) (not_not.mpr ⟨hretry, hne⟩)
        simp only [hm, hns, true_and, howned, if_true]
        split
        next => rintro (he | he | he) <;> cases he
        next hbusy =>
          rw [not_not] at hbusy
          exact absurd (.inl (hid ▸ hbusy)) hg
      · split
        next => exact hother hid _ (.inr (.inl rfl))
        next =>
          split
          next =>
            split
            next => exact hother hid _ (.inr (.inr rfl))
            next => exact hother hid _ (.inr (.inl rfl))
          next => exact hother hid _ (.inl rfl)
  next =>
    by_cases hid : m = id
    · cases hload hid
    · split
      next => exact hother hid _ (.inl rfl)
      next => exact hother hid _ (.inr (.inl rfl))
  next => exact hg

/-- No turn makes a handler's view of a held message an older one. -/
theorem HeldRun.unseen (hx : HeldRun svc x ledger) (hok : PicksAlone x ledger (.turn i o)) {c : Cmd}
    {r : Reply c} (hw : x.waiting i = some (h, c)) (ho : o.fault = none)
    (hr : respond o c x.world = some (r, w)) (hheld : ledger.holder id ≠ none) :
    ¬ ((ledger.work i).after svc h c r).Stale id := by
  have hh := hx.held id hheld
  have hunseen := hh.unseen i h c hw
  have hallows := hx.watched.allows hw
  have hturn := workTurn_after svc h (ledger.work i) c r
  generalize (ledger.work i).after svc h c r = g' at hturn ⊢
  cases hturn with
  | same => exact hunseen
  | free => rintro (he | he | he) <;> cases he
  | @loaded m raw =>
    obtain ⟨-, hv, -⟩ := respond_calm ho hr
    cases hv
    refine stale_load ?_ ?_ hunseen
    · rintro rfl
      by_contra hne
      exact hheld (hok.load i o h m rfl hw (by simpa using hne))
    · rintro rfl
      exact hh.reads
  | picked hread => rintro (he | he | he) <;> cases he
  | @claimed message q m _ =>
    obtain ⟨-, hv, -⟩ := respond_calm ho hr
    rintro (he | he | he) <;> cases he
    have hq : id ∈ x.world.store.redis.queues q := of_decide_eq_true (Except.ok.inj hv).symm
    rcases hallows (hh.only q hq) with he | he
    · exact hunseen (.inl he)
    · exact hunseen (.inr (.inl he))
  | @asked m =>
    rintro (he | he | he) <;> cases he
    have hnone : (x.world.inFlightSends id).isSome = false := (Prod.mk.inj (Option.some.inj hr)).1
    cases hholder : ledger.holder id with
    | none => exact hheld hholder
    | some holder =>
      cases holder with
      | window slot => exact hok.asked i o h id slot rfl hw hholder
      | tracked token =>
        rw [hx.registered id token hholder] at hnone
        cases hnone

end DeviceMessaging
