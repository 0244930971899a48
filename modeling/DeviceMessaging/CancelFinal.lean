import DeviceMessaging.QueueTraffic
import DeviceMessaging.WorkLedger

namespace DeviceMessaging

open Effect

/-- A handler that may still act for a message: it has it in hand, or is about to. -/
def Work.Engaged (g : Work) (id : MessageId) : Prop :=
  g = .loaded id ∨ g = .busy id ∨ g = .picked id ∨ g = .sending id

/-- Ingress, and the rows whose action acts for the message it loads. -/
def Handler.takes (h : Handler) : Bool :=
  match h with
  | .ingress _ _ => true
  | .task (.drain queue _) => queue.stage ≠ .retry
  | _ => false

/-- No handler is engaged with the message, and no send of it is due. -/
structure Unengaged (x : Process) (ledger : WorkLedger) (id : MessageId) : Prop where
  handlers : ∀ j h c, x.waiting j = some (h, c) → ¬ (ledger.work j).Engaged id
  sends : ∀ p m token, Task.send p m token ∈ x.world.tasks → m.id ≠ id

/-- A cancel claims a message that is in no other queue and that no handler is engaged with,
and no handler takes it up between the claim and the purge. -/
structure ClaimsAlone (x : Process) (ledger : WorkLedger)
    (a : Choice Handler Oracle Disturbance) : Prop where
  claim : ∀ i o m q id, a = .turn i o →
    x.waiting i = some (.task (.cancelMessage m), .redis (.removeMessageFromQueue q id)) →
    id ∈ x.world.store.redis.queues q →
      (∀ q', id ∈ x.world.store.redis.queues q' → q' = q) ∧ Unengaged x ledger id
  load : ∀ i o h id, a = .turn i o → x.waiting i = some (h, .redis (.hgetall id)) → h.takes →
    id ∈ ledger.claimed → id ∈ ledger.cancelled

/-- A message a cancel has claimed is not sent and told of no more, and once the cancel has
purged it there is no hash of it. -/
structure CancelFinal (x : Process) (ledger : WorkLedger) : Prop where
  unsent : ∀ id ∈ ledger.claimed, ∀ j h p m, x.waiting j = some (h, .sendOne p m) → m.id ≠ id
  untold : ∀ id ∈ ledger.claimed, ∀ j h record now,
    x.waiting j = some (h, .redis (.webhookEnqueue record now)) →
      record.event.message.id ≠ some id
  gone : ∀ id ∈ ledger.cancelled, x.world.store.redis.messages id = none

variable {svc : Service} {x y : Process} {ledger : WorkLedger} {h : Handler} {g : Work}
  {a : Choice Handler Oracle Disturbance} {id m : MessageId} {raw : Option MessageHash}

theorem engaged_load (hg : (g.load svc h m raw).Engaged id) :
    g.Engaged id ∨ (m = id ∧ h.takes ∧ raw ≠ none) := by
  have hraw : ∀ message, readsAs m raw = some message → raw ≠ none := by
    rintro message hm rfl
    cases hm
  have hsame : ∀ {t : Work}, (t = .loaded m ∨ t = .busy m ∨ t = .missing m) → t.Engaged id →
      m = id := by
    rintro t ht he
    rcases ht with rfl | rfl | rfl <;> rcases he with he | he | he | he <;> cases he <;> rfl
  have hmissing : ¬ (Work.missing m).Engaged id := by
    rintro (he | he | he | he) <;> cases he
  unfold Work.load at hg
  split at hg
  next queue now =>
    split at hg
    next => rcases hg with he | he | he | he <;> cases he
    next hretry =>
      split at hg
      next => exact absurd hg hmissing
      next message hm =>
        refine .inr ⟨?_, decide_eq_true hretry, hraw message hm⟩
        split at hg
        next =>
          split at hg
          next => exact hsame (.inl rfl) hg
          next => exact absurd hg hmissing
        next => exact hsame (.inr (.inl rfl)) hg
  next =>
    split at hg
    next hread =>
      obtain ⟨message, hm⟩ := Option.isSome_iff_exists.mp hread
      exact .inr ⟨hsame (.inr (.inl rfl)) hg, rfl, hraw message hm⟩
    next => exact absurd hg hmissing
  next => exact .inl hg

/-- A handler becomes engaged with a message by loading or by picking it. -/
theorem engaged_respond {o : Oracle} {c : Cmd} {r : Reply c} {w w' : World} (ho : o.fault = none)
    (hr : respond o c w = some (r, w')) (hallows : (works svc h).allows g c)
    (hg : (g.after svc h c r).Engaged id) :
    g.Engaged id ∨ (c = .redis (.hgetall id) ∧ h.takes ∧ w.store.redis.messages id ≠ none) ∨
      ∃ args, c = .redis (.fetchNextMessageInQueueAndMove args) ∧
        id ∈ w.store.redis.queues args.sourceQueue := by
  have hturn := workTurn_after svc h g c r
  generalize g.after svc h c r = g' at hg hturn
  cases hturn with
  | same => exact .inl hg
  | free => rcases hg with he | he | he | he <;> cases he
  | @loaded m raw =>
    obtain ⟨-, hv, -⟩ := respond_calm ho hr
    cases hv
    rcases engaged_load hg with hg | ⟨rfl, ht, hne⟩
    · exact .inl hg
    · exact .inr (.inl ⟨rfl, ht, hne⟩)
  | @picked args m hash message hread =>
    obtain ⟨-, hv, -⟩ := respond_calm ho hr
    obtain ⟨⟨rest, hpop⟩, -⟩ := fetch_reply_moved hv.symm
    rcases hg with he | he | he | he <;> cases he
    exact .inr (.inr ⟨args, rfl, (SortedSet.mem_popMin hpop).mpr (.inl rfl)⟩)
  | claimed hh => rcases hg with he | he | he | he <;> cases he
  | asked =>
    rcases hg with he | he | he | he <;> cases he
    rcases hallows with rfl | rfl
    · exact .inl (.inl rfl)
    · exact .inl (.inr (.inl rfl))

/-- What a claim leaves of a message: no queue has it, and nobody is engaged with it. -/
structure Spent (x : Process) (ledger : WorkLedger) (id : MessageId) : Prop extends
    Unengaged x ledger id where
  named : id ∈ x.world.store.named
  queues : ∀ q, id ∉ x.world.store.redis.queues q
  gone : id ∈ ledger.cancelled → x.world.store.redis.messages id = none

/-- What holds throughout a run whose claims are alone. -/
structure CancelRun (svc : Service) (x : Process) (ledger : WorkLedger) : Prop where
  watched : Watched svc x ledger
  queued : x.world.store.QueuesNamed
  claimers : ∀ j h c id, x.waiting j = some (h, c) → ledger.work j = .claimed id →
    id ∈ ledger.claimed
  cancelled : ∀ id ∈ ledger.cancelled, id ∈ ledger.claimed
  spent : ∀ id ∈ ledger.claimed, Spent x ledger id

/-- A named message without a hash gets one by a retry only. -/
theorem hash_gone {s : Store} {c : RedisCmd} {i : MessageId} (hf : c.Fresh i s)
    (hn : id ∈ s.named) (hgone : s.redis.messages id = none) (hqueues : ∀ q, id ∉ s.redis.queues q)
    (hr : ∀ a, c = .enterRetry a → a.messageId ≠ id) :
    (s.exec c i).2.redis.messages id = none := by
  have hput : ∀ {m : MessageId} {hash : MessageHash}, m ≠ id →
      Function.update s.redis.messages m (some hash) id = none := by
    intro m hash hm
    rw [Function.update_of_ne (fun he => hm he.symm)]
    exact hgone
  have hw := exec_hashWrite s c i
  generalize (s.exec c i).2.redis.messages = f at hw ⊢
  cases hw with
  | keep => exact hgone
  | enqueue => exact hput fun he => (hf rfl).2 (he ▸ hn)
  | @move args hash _ hq => exact hput fun he => hqueues args.sourceQueue (he ▸ hq)
  | @pick args m hash _ hq => exact hput fun he => hqueues args.sourceQueue (he ▸ hq)
  | @retry args => exact hput (hr args rfl)
  | @purge message =>
    by_cases he : id = message.id
    · rw [he, Function.update_self]
    · rw [Function.update_of_ne he]
      exact hgone

/-- A cancel has claimed a message since it took it out of a queue. -/
theorem claimed_respond {o : Oracle} {c : Cmd} {r : Reply c} {w w' : World} (ho : o.fault = none)
    (hr : respond o c w = some (r, w')) (hg : g.after svc h c r = .claimed id) :
    g = .claimed id ∨ ∃ message q, h = .task (.cancelMessage message) ∧
      c = .redis (.removeMessageFromQueue q id) ∧ id ∈ w.store.redis.queues q := by
  have hturn := workTurn_after svc h g c r
  generalize g.after svc h c r = g' at hg hturn
  cases hturn with
  | same => exact .inl hg
  | free => cases hg
  | @loaded m raw =>
    rcases load_cases svc h g m raw with he | he | he | he | he <;> rw [he] at hg
    · exact .inl hg
    all_goals cases hg
  | picked hread => cases hg
  | @claimed message q m hh =>
    cases hg
    obtain ⟨-, hv, -⟩ := respond_calm ho hr
    exact .inr ⟨message, q, hh, rfl, of_decide_eq_true (Except.ok.inj hv).symm⟩
  | asked => cases hg

section Step

variable {i : Nat} {o : Oracle} {c : Cmd} {r : Reply c} {w : World}

/-- What a turn does to a message that was claimed before it. -/
theorem Spent.respond (hs : Spent x ledger id) (hx : CancelRun svc x ledger)
    (hw : x.waiting i = some (h, c)) (ho : o.fault = none)
    (hr : respond o c x.world = some (r, w)) :
    id ∈ w.store.named ∧ (∀ q, id ∉ w.store.redis.queues q) ∧
      (id ∈ cancels c (ledger.work i) ++ ledger.cancelled →
        w.store.redis.messages id = none) ∧
      ∀ p m token, Task.send p m token ∈ w.tasks → m.id ≠ id := by
  have hallows := hx.watched.allows hw
  have hfree := hs.handlers i h c hw
  have hsends : ∀ p m token, Task.send p m token ∈ w.tasks → m.id ≠ id := by
    intro p m token ht
    rcases tasks_respond hr _ ht with ht | rfl | ⟨p', m', rfl, he⟩
    · exact hs.sends p m token ht
    · exact absurd rfl (hallows.2 p m token)
    · cases he
      rintro rfl
      exact hfree (.inr (.inr (.inl hallows)))
  have hcancels : id ∈ cancels c (ledger.work i) →
      ∃ message qs, c = .redis (.messageFullCleanup message qs) ∧ id = message.id := by
    intro hc
    obtain ⟨message, qs, m, hc, -, he⟩ := mem_cancels hc
    exact ⟨message, qs, hc, he⟩
  by_cases hredis : ∃ c', c = .redis c'
  · obtain ⟨c, rfl⟩ := hredis
    obtain ⟨hf, -, rfl⟩ := respond_calm ho hr
    have hretry : ∀ args, c = .enterRetry args → args.messageId ≠ id := by
      rintro args rfl rfl
      rcases hallows with he | he
      · exact hfree (.inr (.inl he))
      · exact hfree (.inr (.inr (.inr he)))
    refine ⟨named_exec _ c o.id id hs.named, queues_empty hf hs.named hs.queues hretry,
      fun hc => ?_, hsends⟩
    rcases List.mem_append.mp hc with hc | hc
    · obtain ⟨message, qs, he, rfl⟩ := hcancels hc
      cases he
      change (messageFullCleanup message qs x.world.store.redis).messages message.id = none
      rw [cleanup_messages, Function.update_self]
    · exact hash_gone hf hs.named (hs.gone hc) hs.queues hretry
  · have hstore : w.store = x.world.store := by
      rcases respond_store hr with he | ⟨c', hc, -, -⟩
      · exact he
      · exact absurd ⟨c', hc⟩ hredis
    rw [hstore]
    refine ⟨hs.named, hs.queues, fun hc => hs.gone ?_, hsends⟩
    rcases List.mem_append.mp hc with hc | hc
    · obtain ⟨message, qs, hc, -⟩ := hcancels hc
      exact absurd ⟨_, hc⟩ hredis
    · exact hc

theorem Spent.next (hs : Spent x ledger id) (hx : CancelRun svc x ledger)
    (hid : id ∈ ledger.claimed) (hok : ClaimsAlone x ledger a)
    (hy : (engine svc {}).next a x = some y) : Spent y (noteWork svc x a ledger) id := by
  have hstep : WorkStep svc x ledger a y (noteWork svc x a ledger) := workStep_of_next hy
  generalize noteWork svc x a ledger = ledger' at hstep ⊢
  have hhandlers : ∀ j h c, y.waiting j = some (h, c) → ¬ (ledger'.work j).Engaged id := by
    intro j h c hj hg
    rcases hstep.waits hj with ⟨hw, he, -⟩ | ⟨w, rfl, hw, he⟩ | ⟨o, b, r, w, rfl, hw, ho, hr, he⟩
    · exact hs.handlers j h c hw (he ▸ hg)
    · rw [he] at hg
      unfold Handler.work at hg
      split at hg
      next p m token =>
        rcases startHandler_cases hw with ⟨t, ht, he, -⟩ | ⟨hne, -⟩
        · cases he
          rcases hg with he | he | he | he <;> cases he
          exact hs.sends p m token ht rfl
        · exact hne _ rfl
      next => rcases hg with he | he | he | he <;> cases he
    · rcases engaged_respond ho hr (hx.watched.allows hw) (he ▸ hg) with hg | ⟨rfl, ht, hne⟩ |
        ⟨args, rfl, hq⟩
      · exact hs.handlers j h b hw hg
      · exact hne (hs.gone (hok.load j o h id rfl hw ht hid))
      · exact hs.queues _ hq
  cases hstep with
  | start h w hw =>
    rcases startHandler_cases hw with ⟨t, -, -, rfl⟩ | ⟨-, rfl⟩
    · exact ⟨⟨hhandlers, fun p m token ht => hs.sends p m token (List.mem_of_mem_erase ht)⟩,
        hs.named, hs.queues, hs.gone⟩
    · exact ⟨⟨hhandlers, hs.sends⟩, hs.named, hs.queues, hs.gone⟩
  | turn ht ho hr =>
    obtain ⟨hnamed, hqueues, hgone, hsends⟩ := hs.respond hx (Config.waiting_of_get ht) ho hr
    exact ⟨⟨hhandlers, hsends⟩, hnamed, hqueues, hgone⟩
  | elapse ms => exact ⟨⟨hhandlers, hs.sends⟩, hs.named, hs.queues, hs.gone⟩

/-- A claim that is alone spends its message. -/
theorem Spent.of_claim {message : DeviceMessage} {q : QueueKey} (hx : CancelRun svc x ledger)
    (hok : ClaimsAlone x ledger (.turn i o)) (hy : (engine svc {}).next (.turn i o) x = some y)
    (hw : x.waiting i = some (.task (.cancelMessage message), .redis (.removeMessageFromQueue q id)))
    (hq : id ∈ x.world.store.redis.queues q) (hnew : id ∉ ledger.claimed) :
    Spent y (noteWork svc x (.turn i o) ledger) id := by
  obtain ⟨honly, hfree⟩ := hok.claim i o message q id rfl hw hq
  have hstep : WorkStep svc x ledger (.turn i o) y (noteWork svc x (.turn i o) ledger) :=
    workStep_of_next hy
  generalize noteWork svc x (.turn i o) ledger = ledger' at hstep ⊢
  have hhandlers : ∀ j h c, y.waiting j = some (h, c) → ¬ (ledger'.work j).Engaged id := by
    intro j h c hj hg
    rcases hstep.waits hj with ⟨hw', he, -⟩ | ⟨w, ha, -⟩ | ⟨o', b, r, w, ha, hw', ho, hr, he⟩
    · exact hfree.handlers j h c hw' (he ▸ hg)
    · cases ha
    · cases ha
      rw [hw] at hw'
      cases hw'
      rcases engaged_respond ho hr (hx.watched.allows hw) (he ▸ hg) with hg | ⟨he, -⟩ |
        ⟨args, he, -⟩
      · exact hfree.handlers i _ _ hw hg
      · cases he
      · cases he
  cases hstep with
  | @turn _ _ h c k r w ht ho hr =>
    rw [Config.waiting_of_get ht] at hw
    cases hw
    obtain ⟨-, -, rfl⟩ := respond_calm ho hr
    refine ⟨⟨hhandlers, hfree.sends⟩, hx.queued id q hq, fun q' hq' => ?_, fun hc => ?_⟩
    · have hq'' := mem_zrem.mp hq'
      exact hq''.2 rfl (honly q' hq''.1)
    · rcases List.mem_append.mp hc with hc | hc
      · obtain ⟨message', qs, m, he, -⟩ := mem_cancels hc
        cases he
      · exact absurd (hx.cancelled id hc) hnew

/-- The claims after a step are those before it and the one that is made by its turn. -/
theorem mem_claimed_next (hy : (engine svc {}).next a x = some y) :
    id ∈ (noteWork svc x a ledger).claimed ↔ id ∈ ledger.claimed ∨
      ∃ i o h c r w, a = .turn i o ∧ x.waiting i = some (h, c) ∧ o.fault = none ∧
        respond o c x.world = some (r, w) ∧ (ledger.work i).after svc h c r = .claimed id := by
  have hstep : WorkStep svc x ledger a y (noteWork svc x a ledger) := workStep_of_next hy
  generalize noteWork svc x a ledger = ledger' at hstep ⊢
  have hclaims : ∀ g : Work, id ∈ claims g ↔ g = .claimed id := by
    intro g
    cases g <;> simp [claims, eq_comm]
  cases hstep with
  | start h w hw =>
    refine ⟨.inl, fun hid => hid.resolve_right ?_⟩
    rintro ⟨i, o, h, c, r, w, he, -⟩
    cases he
  | @turn i o h c k r w ht ho hr =>
    have hw : x.waiting i = some (h, c) := Config.waiting_of_get ht
    refine List.mem_append.trans ?_
    rw [hclaims]
    constructor
    · rintro (he | hid)
      · exact .inr ⟨i, o, h, c, r, w, rfl, hw, ho, hr, he⟩
      · exact .inl hid
    · rintro (hid | ⟨i', o', h', c', r', w', ha, hw', -, hr', he⟩)
      · exact .inr hid
      · cases ha
        rw [hw] at hw'
        cases hw'
        rw [hr] at hr'
        cases hr'
        exact .inl he
  | elapse ms =>
    refine ⟨.inl, fun hid => hid.resolve_right ?_⟩
    rintro ⟨i, o, h, c, r, w, he, -⟩
    cases he

theorem CancelRun.next (hx : CancelRun svc x ledger) (hok : ClaimsAlone x ledger a)
    (hy : (engine svc {}).next a x = some y) : CancelRun svc y (noteWork svc x a ledger) where
  watched := hx.watched.next hy
  queued := queuesNamed_next hx.queued hy
  claimers j h c id hj hg := by
    rw [mem_claimed_next hy]
    have hstep : WorkStep svc x ledger a y (noteWork svc x a ledger) := workStep_of_next hy
    rcases hstep.waits hj with ⟨hw, he, -⟩ | ⟨w, rfl, -, he⟩ | ⟨o, b, r, w, rfl, hw, ho, hr, he⟩
    · exact .inl (hx.claimers j h c id hw (he ▸ hg))
    · rw [he] at hg
      unfold Handler.work at hg
      split at hg <;> cases hg
    · exact .inr ⟨j, o, h, b, r, w, rfl, hw, ho, hr, he ▸ hg⟩
  cancelled id hid := by
    rw [mem_claimed_next hy]
    have hstep : WorkStep svc x ledger a y (noteWork svc x a ledger) := workStep_of_next hy
    generalize noteWork svc x a ledger = ledger' at hstep hid
    cases hstep with
    | start h w hw => exact .inl (hx.cancelled id hid)
    | turn ht ho hr =>
      rcases List.mem_append.mp hid with hid | hid
      · obtain ⟨message, qs, m, rfl, hg, rfl⟩ := mem_cancels hid
        have hw := Config.waiting_of_get ht
        rcases hx.watched.allows hw with (he | he) | he
        · cases hg.symm.trans he
        · cases hg.symm.trans he
        · exact .inl (hx.claimers _ _ _ _ hw he)
      · exact .inl (hx.cancelled id hid)
    | elapse ms => exact .inl (hx.cancelled id hid)
  spent id hid := by
    by_cases hold : id ∈ ledger.claimed
    · exact (hx.spent id hold).next hx hold hok hy
    · rcases (mem_claimed_next hy).mp hid with hid | ⟨i, o, h, c, r, w, rfl, hw, ho, hr, he⟩
      · exact absurd hid hold
      · rcases claimed_respond ho hr he with he | ⟨message, q, rfl, rfl, hq⟩
        · exact absurd (hx.claimers i h c id hw he) hold
        · exact .of_claim hx hok hy hw hq hold

end Step

theorem cancelRun_initial : CancelRun svc Process.initial {} where
  watched := watched_initial
  queued _ _ h := absurd h SortedSet.not_mem_empty
  claimers _ _ _ _ h := by cases h
  cancelled _ h := by cases h
  spent _ h := by cases h

/-- In a run whose claims are alone, what a cancel has claimed stays unsent and untold of, and
what it has purged stays gone. -/
theorem worked_cancelFinal (hx : Worked svc ClaimsAlone x ledger) : CancelFinal x ledger := by
  have hrun : CancelRun svc x ledger := by
    refine hx.invariant (I := CancelRun svc) cancelRun_initial ?_
    intro x y a ledger hI hok hy
    exact hI.next hok hy
  refine ⟨?_, ?_, fun id hid => (hrun.spent id (hrun.cancelled id hid)).gone hid⟩
  · rintro id hid j h p m hw rfl
    exact (hrun.spent _ hid).handlers j h _ hw (.inr (.inr (.inr (hrun.watched.allows hw).1)))
  · intro id hid j h record now hw he
    have hfree := (hrun.spent id hid).handlers j h _ hw
    rcases hrun.watched.allows hw id he with (hg | hg) | hg
    · exact hfree (.inr (.inl hg))
    · exact hfree (.inr (.inr (.inr hg)))
    · exact hfree (.inr (.inr (.inl hg)))

instance (g : Work) (id : MessageId) : Decidable (g.Engaged id) :=
  inferInstanceAs (Decidable (_ ∨ _))

/-- The message of a task that is a send. -/
def Task.sendId (t : Task) : Option MessageId :=
  match t with
  | .send _ message _ => some message.id
  | _ => none

def unengagedCheck (x : Process) (ledger : WorkLedger) (id : MessageId) : Bool :=
  ((List.range x.threads.length).all fun j => (x.waiting j).isNone || ¬ (ledger.work j).Engaged id) &&
    x.world.tasks.all fun t => t.sendId ≠ some id

/-- The condition of a run with every message in one queue, checked. -/
def claimsAloneCheck (x : Process) (ledger : WorkLedger) (a : Choice Handler Oracle Disturbance) :
    Bool :=
  match a with
  | .turn i _ =>
    match x.waiting i with
    | some (.task (.cancelMessage _), .redis (.removeMessageFromQueue _ id)) =>
      unengagedCheck x ledger id
    | some (h, .redis (.hgetall id)) => h.takes → id ∈ ledger.claimed → id ∈ ledger.cancelled
    | _ => true
  | _ => true

theorem unengaged_of_check (hc : unengagedCheck x ledger id = true) : Unengaged x ledger id := by
  unfold unengagedCheck at hc
  simp only [Bool.and_eq_true, List.all_eq_true, List.mem_range, Bool.or_eq_true,
    decide_eq_true_eq] at hc
  refine ⟨fun j h c hw => ?_, fun p m token ht => ?_⟩
  · have hlt : j < x.threads.length := by
      obtain ⟨k, ht⟩ := Config.get_of_waiting hw
      exact (List.getElem?_eq_some_iff.mp ht).1
    have hj := hc.1 j hlt
    rw [hw] at hj
    simpa using hj
  · exact fun he => hc.2 _ ht (congrArg some he)

theorem claimsAlone_of_check (x : Process) (ledger : WorkLedger)
    (a : Choice Handler Oracle Disturbance) (hp : x.world.store.SinglePlacement)
    (hc : claimsAloneCheck x ledger a = true) : ClaimsAlone x ledger a := by
  constructor
  · rintro i o m q id rfl hw hq
    simp only [claimsAloneCheck, hw] at hc
    exact ⟨fun q' hq' => hp id q' q hq' hq, unengaged_of_check hc⟩
  · rintro i o h id rfl hw
    simp only [claimsAloneCheck, hw, decide_eq_true_eq] at hc
    exact hc

theorem job_named : some "job-1" ≠ some "" := by decide

/-- A command that can be cancelled. -/
def jobCreate : CreateDeviceMessage :=
  { sampleCreate with
    correlationId := some "job-1"
    correlationId_ne := job_named }

def jobMessage : DeviceMessage :=
  { sampleMessage with correlationId := some "job-1" }

/-- The command is cancelled while it is queued; a pass then finds its queue empty. -/
def cancelQueued : List (Choice Handler Oracle Disturbance) :=
  List.flatten [
    [.start (.enqueue jobCreate), .turn 0 { id := sampleId }, .start (.cancel "job-1")],
    turns 1 3 {},
    [.start (.task (.cancelMessage { jobMessage with deliveryStatus := some .QUEUED }))],
    turns 2 2 {},
    [.start .distribute], turns 3 2 {},
    [.start (.task (.distributeQueue sampleQueue))], turns 4 3 {}]

theorem queuedJob_cancelled : ∃ x ledger, Worked vendorService ClaimsAlone x ledger ∧
    sampleId ∈ ledger.cancelled ∧ CancelFinal x ledger := by
  have hrun : ((engine vendorService {}).followRecorded
      (fun x ledger a => checkCommand claimStandsCheck x a && claimsAloneCheck x ledger a)
      (noteWork vendorService) cancelQueued Process.initial {}).any
        (fun s => sampleId ∈ s.2.cancelled) = true := by
    decide +kernel
  obtain ⟨⟨x, ledger⟩, hs, hcancelled⟩ := (Option.any_eq_true _ _).mp hrun
  have hx : Worked vendorService ClaimsAlone x ledger := placed_of_follow claimsAlone_of_check hs
  exact ⟨x, ledger, hx, of_decide_eq_true hcancelled, worked_cancelFinal hx⟩

/-- The command once its deadline in `ns` has fired. -/
def retriedJob : DeviceMessage :=
  { jobMessage with
    deliveryStatus := some .TO_RETRY
    retryCount := some 1
    failureHistory :=
      [failureEntry { reason := timeoutReason .ns none } (some .SENT_TO_NS) 0 false] }

/-- While a pass awaits its first-send event, the deadline in `ns` fires and the message is
cancelled in retry; the pass then hands its send off all the same. -/
def cancelPicked : List (Choice Handler Oracle Disturbance) :=
  List.flatten [
    [.start (.enqueue jobCreate), .turn 0 { id := sampleId }, .start .distribute], turns 1 2 {},
    [.start (.task (.distributeQueue sampleQueue))], turns 2 6 {},
    [.start .tick, .turn 3 { now := 900000 }], turns 3 6 {},
    [.start (.task (.drain ⟨.ns, .ns⟩ 900000))], turns 4 11 {},
    [.start (.cancel "job-1")], turns 5 3 {},
    [.start (.task (.cancelMessage retriedJob))], turns 6 2 {}, turns 2 2 {},
    [.start (.task (.send "calin-chirpstack" jobMessage 0))]]

/-- The message whose send a command starts. -/
def Cmd.sendId (c : Cmd) : Option MessageId :=
  match c with
  | .sendOne _ message => some message.id
  | _ => none

theorem sendId_some {c : Cmd} (hc : c.sendId = some id) : ∃ p m, c = .sendOne p m ∧ m.id = id := by
  unfold Cmd.sendId at hc
  split at hc
  next p m => exact ⟨p, m, rfl, Option.some.inj hc⟩
  next => cases hc

theorem pickedJob_sent : ∃ x ledger, Worked vendorService (fun _ _ _ => True) x ledger ∧
    sampleId ∈ ledger.cancelled ∧ ¬ CancelFinal x ledger := by
  have hrun : ((engine vendorService {}).followRecorded (fun _ _ _ => true)
      (noteWork vendorService) cancelPicked Process.initial {}).any (fun s =>
        (sampleId ∈ s.2.claimed ∧ sampleId ∈ s.2.cancelled) ∧
          (s.1.waiting 7).any fun t => t.2.sendId = some sampleId) = true := by
    decide +kernel
  obtain ⟨⟨x, ledger⟩, hs, hsent⟩ := (Option.any_eq_true _ _).mp hrun
  obtain ⟨⟨hclaimed, hcancelled⟩, hsends⟩ := of_decide_eq_true hsent
  obtain ⟨⟨h, c⟩, hw, hc⟩ := (Option.any_eq_true _ _).mp hsends
  obtain ⟨p, m, rfl, hm⟩ := sendId_some (of_decide_eq_true hc)
  exact ⟨x, ledger, .of_follow (fun _ _ _ _ => trivial) .init hs, hcancelled,
    fun hfinal => hfinal.unsent sampleId hclaimed 7 h p m hw hm⟩

end DeviceMessaging
