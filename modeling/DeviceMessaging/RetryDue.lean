import DeviceMessaging.AgeCap
import DeviceMessaging.ReadyOrder
import DeviceMessaging.RetryRow

namespace DeviceMessaging

open Effect Prog

/-- What a drain saw of a member it listed: the queue, and the due time that was last written for
the member in the retry queue. -/
structure Listing where
  queue : QueueKey
  dueAt : Option ℚ
  deriving DecidableEq

/-- A member that left the retry stage for its ready queue: the queue that the thread drains and
the clock reading it was started with, and what the thread saw when it listed the member. -/
structure Requeued where
  id : MessageId
  drained : Option (QueueKey × Nat)
  listed : Option Listing
  deriving DecidableEq

/-- The due times last written to the retry queue, what every slot saw of the members it listed
and has not tried yet, and the members that were requeued. -/
structure RetryLedger where
  dues : MessageId → Option ℚ := fun _ => none
  seen : Nat → MessageId → Option Listing := fun _ _ => none
  requeued : List Requeued := []

/-- The queue a drain drains, and the clock reading it was started with. -/
def Handler.drained (h : Handler) : Option (QueueKey × Nat) :=
  match h with
  | .task (.drain queue now) => some (queue.key, now)
  | _ => none

/-- A retry writes its due time, and ZADD XX that of a member. -/
def duesAfter (o : Oracle) (c : Cmd) (r : Redis) (dues : MessageId → Option ℚ) :
    MessageId → Option ℚ :=
  if o.fault = some .refused then dues
  else match c with
    | .redis (.enterRetry a) => Function.update dues a.messageId a.dueAt
    | .redis (.zaddXx q (some score) id) =>
      if q = .retry ∧ id ∈ r.queues .retry then Function.update dues id (some score) else dues
    | _ => dues

def seenAfter (i : Nat) (o : Oracle) (c : Cmd) (r : Redis) (dues : MessageId → Option ℚ)
    (seen : Nat → MessageId → Option Listing) : Nat → MessageId → Option Listing :=
  match c with
  | .redis (.getExpiredMessagesInQueue q t) =>
    Function.update seen i fun id =>
      if o.fault = none ∧ id ∈ (r.queues q).due t queueScanBatchSize then some ⟨q, dues id⟩
      else none
  | .redis (.moveMessageBetweenQueues a) =>
    Function.update seen i (Function.update (seen i) a.messageId none)
  | _ => seen

def requeuedBy (o : Oracle) (h : Handler) (c : Cmd) (r : Redis)
    (seen : MessageId → Option Listing) : List Requeued :=
  match c with
  | .redis (.moveMessageBetweenQueues a) =>
    if a.sourceQueue = .retry ∧ o.fault ≠ some .refused ∧ moves a r then
      [⟨a.messageId, h.drained, seen a.messageId⟩]
    else []
  | _ => []

def noteRetries (x : Process) (a : Choice Handler Oracle Disturbance) (ledger : RetryLedger) :
    RetryLedger :=
  match a with
  | .start _ =>
    { ledger with seen := Function.update ledger.seen x.threads.length fun _ => none }
  | .turn i o =>
    match x.waiting i with
    | none => ledger
    | some (h, c) =>
      let r := x.world.store.redis
      { dues := duesAfter o c r ledger.dues
        seen := seenAfter i o c r ledger.dues ledger.seen
        requeued := requeuedBy o h c r (ledger.seen i) ++ ledger.requeued }
  | _ => ledger

/-- The runs of the process with the ledger of its retries. -/
abbrev RetryRun (svc : Service) (weather : Weather) : Process → RetryLedger → Prop :=
  (engine svc weather).Recorded (fun _ _ _ => True) noteRetries Process.initial {}

/-- A drain of the retry queue listed the member, with a due time that its reading had reached. -/
def Requeued.WhenDue (r : Requeued) : Prop :=
  ∃ now due, r.drained = some (.retry, now) ∧ r.listed = some ⟨.retry, some due⟩ ∧ due ≤ now

variable {svc : Service} {weather : Weather} {x y : Process} {ledger : RetryLedger} {s : Store}
  {c : RedisCmd} {i id : MessageId} {k : ℚ} {w w' : World} {o : Oracle}

section Entries

theorem entries_retried {a : EnterRetryMulti} {r : Redis} (hdue : a.dueAt ≠ none)
    (h : (k, id) ∈ ((enterRetryMulti a r).2.queues .retry).entries) :
    (a.messageId = id ∧ a.dueAt = some k) ∨
      (a.messageId ≠ id ∧ (k, id) ∈ (r.queues .retry).entries) := by
  obtain ⟨due, hd⟩ := Option.ne_none_iff_exists'.mp hdue
  unfold enterRetryMulti at h
  simp only [hd, releaseConcurrencySlot_queues, delStaleIndex_queues, Redis.zadd,
    Function.update_self, SortedSet.mem_insert_entries] at h
  rcases h with h | ⟨h, hne⟩
  · cases h
    exact .inl ⟨rfl, hd⟩
  · exact .inr ⟨Ne.symm hne, entries_zrem h⟩

theorem entries_enqueued {dto : CreateDeviceMessage} {q : QueueKey} {r : Redis}
    (hq : QueueKey.retry ≠ q) (h : (k, id) ∈ ((enqueueMulti i dto q r).queues .retry).entries) :
    (k, id) ∈ (r.queues .retry).entries := by
  unfold enqueueMulti at h
  cases hc : dto.correlationId <;> rw [hc] at h <;>
    exact (entries_zadd h).resolve_right fun he => hq he.1

theorem entries_rescored {r : Redis} {x : MessageId} {l : ℚ}
    (h : (k, id) ∈ ((r.queues .retry).rescore x l).entries) :
    (x = id ∧ l = k ∧ id ∈ r.queues .retry) ∨ ((k, id) ∈ (r.queues .retry).entries ∧ x ≠ id) := by
  unfold SortedSet.rescore at h
  split at h
  next hin =>
    rcases SortedSet.mem_insert_entries.mp h with h | ⟨h, hne⟩
    · cases h
      exact .inl ⟨rfl, rfl, hin⟩
    · exact .inr ⟨h, Ne.symm hne⟩
  next hout =>
    refine .inr ⟨h, ?_⟩
    rintro rfl
    exact hout (SortedSet.mem_iff.mpr ⟨k, h⟩)

theorem home_ne_retry {dto : CreateDeviceMessage} {q : QueueKey} (hq : dto.home svc = some q) :
    QueueKey.retry ≠ q := by
  obtain ⟨plugin, -, rfl⟩ := Option.map_eq_some_iff.mp hq
  exact nofun

theorem nextStage_to {pattern : DeliveryPattern} {fromStage next : StageName}
    (hn : nextStage pattern fromStage = some next) : next ≠ .retry := by
  rintro rfl
  cases pattern <;> cases fromStage <;> cases hn

/-- How a command of the service leaves an entry in the retry queue. -/
theorem retry_entry_exec (hc : Cmd.Proper svc s.enqueued (.redis c))
    (h : (k, id) ∈ ((s.exec c i).2.redis.queues .retry).entries) :
    (∃ a, c = .enterRetry a ∧ a.messageId = id ∧ a.dueAt = some k) ∨
    (c = .zaddXx .retry (some k) id ∧ id ∈ s.redis.queues .retry) ∨
    ((k, id) ∈ (s.redis.queues .retry).entries ∧ (∀ a, c = .enterRetry a → a.messageId ≠ id) ∧
      ∀ l, c ≠ .zaddXx .retry (some l) id) := by
  have hkeep : (∀ a, c ≠ .enterRetry a) → (∀ l, c ≠ .zaddXx .retry (some l) id) →
      (k, id) ∈ (s.redis.queues .retry).entries →
      (k, id) ∈ (s.redis.queues .retry).entries ∧ (∀ a, c = .enterRetry a → a.messageId ≠ id) ∧
        ∀ l, c ≠ .zaddXx .retry (some l) id :=
    fun hne hz h => ⟨h, fun a he => absurd he (hne a), hz⟩
  cases c with
  | enqueueDeviceMessage dto q =>
    exact .inr (.inr (hkeep (by simp) (by simp) (entries_enqueued (home_ne_retry hc) h)))
  | moveMessageBetweenQueues a =>
    rcases entries_move h with h | ⟨hq, -⟩
    · exact .inr (.inr (hkeep (by simp) (by simp) h))
    · rcases hc with ⟨plugin, fromStage, next, -, hn, -, hdest, -⟩ | ⟨dto, -, -, hhome, -⟩
      · exact absurd (stageKeyFor_retry (hdest.symm.trans hq.symm)) (nextStage_to hn)
      · exact absurd hq (home_ne_retry hhome)
  | fetchNextMessageInQueueAndMove a =>
    obtain ⟨_, _, -, -, hdest, -⟩ := hc
    exact .inr (.inr (hkeep (by simp) (by simp) (entries_fetch h (by simp [hdest]))))
  | enterRetry a =>
    rcases entries_retried hc.1 h with ⟨hid, hdue⟩ | ⟨hid, h⟩
    · exact .inl ⟨a, rfl, hid, hdue⟩
    · refine .inr (.inr ⟨h, fun a' he => ?_, by simp⟩)
      cases he
      exact hid
  | removeMessageFromQueue q x =>
    exact .inr (.inr (hkeep (by simp) (by simp) (entries_zrem h)))
  | messageFullCleanup m qs =>
    exact .inr (.inr (hkeep (by simp) (by simp) (entries_cleanup h)))
  | zaddXx q score x =>
    cases score with
    | none => exact .inr (.inr (hkeep (by simp) (by simp) h))
    | some l =>
      by_cases hq : q = .retry
      · subst hq
        simp only [Store.exec, RedisCmd.run, Redis.setQueue, Function.update_self] at h
        rcases entries_rescored h with ⟨rfl, rfl, hin⟩ | ⟨h, hx⟩
        · exact .inr (.inl ⟨rfl, hin⟩)
        · refine .inr (.inr (hkeep (by simp) (fun l' he => ?_) h))
          simp only [RedisCmd.zaddXx.injEq] at he
          exact hx he.2.2
      · refine .inr (.inr (hkeep (by simp) (fun l' he => ?_) (entries_rescore (Ne.symm hq) h)))
        simp only [RedisCmd.zaddXx.injEq] at he
        exact hq he.1
  | lockQueueForTimeMs q ms =>
    refine .inr (.inr (hkeep (by simp) (by simp) ?_))
    simp only [Store.exec, RedisCmd.run, lockQueueForTimeMs] at h
    split at h <;> exact h
  | sremRateLimit key ids =>
    simp only [Store.exec, RedisCmd.run, validateAndClean_queues] at h
    exact .inr (.inr (hkeep (by simp) (by simp) h))
  | _ => exact .inr (.inr (hkeep (by simp) (by simp) h))

end Entries

/-- The members of the retry queue are scored by the due times last written for them. -/
def ScoredByDue (s : Store) (dues : MessageId → Option ℚ) : Prop :=
  ∀ k id, (k, id) ∈ (s.redis.queues .retry).entries → dues id = some k

/-- What is written for one message is not written for another. -/
theorem duesAfter_other (o : Oracle) (r : Redis) (dues : MessageId → Option ℚ)
    (hretry : ∀ a, c = .enterRetry a → a.messageId ≠ id)
    (hscore : ∀ l, c ≠ .zaddXx .retry (some l) id) :
    duesAfter o (.redis c) r dues id = dues id := by
  unfold duesAfter
  split
  next => rfl
  next =>
    cases c with
    | enterRetry a => exact Function.update_of_ne (Ne.symm (hretry a rfl)) ..
    | zaddXx q score x =>
      cases score with
      | none => rfl
      | some l =>
        dsimp only
        split
        next hq =>
          have hx : id ≠ x := fun he => hscore l (by rw [hq.1, he])
          exact Function.update_of_ne hx ..
        next => rfl
    | _ => rfl

theorem scoredByDue_exec {dues : MessageId → Option ℚ} (hs : ScoredByDue s dues)
    (hc : Cmd.Proper svc s.enqueued (.redis c)) (ho : o.fault ≠ some .refused) :
    ScoredByDue (s.exec c i).2 (duesAfter o (.redis c) s.redis dues) := by
  intro k id h
  rcases retry_entry_exec hc h with ⟨a, rfl, rfl, hdue⟩ | ⟨rfl, hin⟩ | ⟨hbefore, hretry, hscore⟩
  · simp [duesAfter, ho, hdue]
  · simp [duesAfter, ho, hin]
  · rw [duesAfter_other o s.redis dues hretry hscore]
    exact hs k id hbefore

theorem duesAfter_refused {dues : MessageId → Option ℚ} {c : Cmd} {r : Redis}
    (ho : o.fault = some .refused) : duesAfter o c r dues = dues :=
  if_pos ho

theorem scoredByDue_turn {dues : MessageId → Option ℚ} {c : Cmd} {r : Reply c}
    (hs : ScoredByDue w.store dues) (hc : c.Proper svc w.store.enqueued)
    (hr : respond o c w = some (r, w')) :
    ScoredByDue w'.store (duesAfter o c w.store.redis dues) := by
  have hkept : (∀ c', c ≠ .redis c') → duesAfter o c w.store.redis dues = dues := by
    intro hne
    unfold duesAfter
    split
    next => rfl
    next =>
      cases c with
      | redis c' => exact absurd rfl (hne c')
      | _ => rfl
  cases c with
  | redis c =>
    obtain ⟨-, ⟨ho, -, hw⟩ | ⟨ho, -, hw⟩ | ⟨ho, -, hw⟩⟩ := execRedis_cases hr <;> rw [hw]
    · exact scoredByDue_exec hs hc (by simp [ho])
    · rw [duesAfter_refused ho]
      exact hs
    · exact scoredByDue_exec hs hc (by simp [ho])
  | _ =>
    rcases respond_store hr with he | ⟨c', he, -⟩
    · rw [he, hkept (by simp)]
      exact hs
    · cases he

/-- What a slot saw of a member it has left to try: it was due in the retry queue. -/
def SeenDue (now : Nat) (seen : MessageId → Option Listing) (id : MessageId) : Prop :=
  ∃ due : ℚ, seen id = some ⟨.retry, some due⟩ ∧ due ≤ now

/-- A drain of the retry row has left to try what was due when it listed it. -/
def ListsDue (ledger : RetryLedger) (j : Nat) (t : Handler × Engine Unit) : Prop :=
  ∀ now, t.1 = .task (.drain retryRow now) → ∃ left,
    InRetryRow now t.2 (fun _ => True) left ∧ ∀ id ∈ left, SeenDue now (ledger.seen j) id

structure RetryKept (x : Process) (ledger : RetryLedger) : Prop where
  scored : ScoredByDue x.world.store ledger.dues
  slots : ∀ (j : Nat) t, x.threads[j]? = some t → ListsDue ledger j t
  requeued : ∀ r ∈ ledger.requeued, r.WhenDue

theorem retryKept_initial : RetryKept Process.initial {} where
  scored _ _ h := absurd h List.not_mem_nil
  slots _ _ ht := by cases ht
  requeued _ h := absurd h List.not_mem_nil

/-- What a drain of the row has left to try was due when it listed it. -/
theorem listing_respond {now j : Nat} {c : Cmd} {r : Reply c} {left : List MessageId}
    (hscored : ScoredByDue w.store ledger.dues) (hallow : (listing now).allows left c)
    (hleft : ∀ id ∈ left, SeenDue now (ledger.seen j) id) (hr : respond o c w = some (r, w')) :
    ∃ left', (listing now).next left c r left' ∧ ∀ id ∈ left',
      SeenDue now (seenAfter j o c w.store.redis ledger.dues ledger.seen j) id := by
  cases c with
  | redis c =>
    cases c with
    | getExpiredMessagesInQueue q t =>
      obtain ⟨rfl, rfl⟩ := hallow
      obtain ⟨-, ⟨ho, hv, -⟩ | ⟨-, hv, -⟩ | ⟨-, hv, -⟩⟩ := execRedis_cases hr
      · subst hv
        refine ⟨_, ⟨SortedSet.due_nodup .., rfl⟩, fun id hid => ?_⟩
        have hin : id ∈ (w.store.redis.queues .retry).due t queueScanBatchSize := hid
        obtain ⟨k, hk, hle⟩ := SortedSet.mem_due hin
        refine ⟨k, ?_, hle⟩
        simp [seenAfter, ho, hin, hscored k id hk]
      · subst hv
        exact ⟨[], rfl, fun id hid => absurd hid List.not_mem_nil⟩
      · subst hv
        exact ⟨[], rfl, fun id hid => absurd hid List.not_mem_nil⟩
    | moveMessageBetweenQueues a =>
      refine ⟨left.filter fun id => id ≠ a.messageId, by cases r <;> rfl, fun id hid => ?_⟩
      obtain ⟨hid, hne⟩ := List.mem_filter.mp hid
      obtain ⟨due, hseen, hle⟩ := hleft id hid
      refine ⟨due, ?_, hle⟩
      simp only [seenAfter, Function.update_self]
      rw [Function.update_of_ne (of_decide_eq_true hne)]
      exact hseen
    | _ => exact ⟨left, by cases r <;> rfl, hleft⟩
  | _ => exact ⟨left, rfl, hleft⟩

theorem seenAfter_ne {r : Redis} {dues : MessageId → Option ℚ}
    {seen : Nat → MessageId → Option Listing} {i j : Nat} {c : Cmd} (hj : j ≠ i) :
    seenAfter i o c r dues seen j = seen j := by
  unfold seenAfter
  split
  next => exact Function.update_of_ne hj ..
  next => exact Function.update_of_ne hj ..
  next => rfl

theorem noteRetries_turn {i : Nat} {h : Handler} {c : Cmd} (hw : x.waiting i = some (h, c)) :
    noteRetries x (.turn i o) ledger =
      { dues := duesAfter o c x.world.store.redis ledger.dues
        seen := seenAfter i o c x.world.store.redis ledger.dues ledger.seen
        requeued := requeuedBy o h c x.world.store.redis (ledger.seen i) ++ ledger.requeued } := by
  simp only [noteRetries, hw]

/-- A slot that does not move keeps what the ledger has of it. -/
theorem noteRetries_slot (ledger : RetryLedger) {a : Choice Handler Oracle Disturbance} {j : Nat}
    (hj : j < x.threads.length) (hturn : ∀ o, a ≠ .turn j o) :
    (noteRetries x a ledger).seen j = ledger.seen j := by
  cases a with
  | start h => exact Function.update_of_ne (Nat.ne_of_lt hj) ..
  | turn i o =>
    have hne : j ≠ i := by
      rintro rfl
      exact hturn o rfl
    cases hw : x.waiting i with
    | none => simp only [noteRetries, hw]
    | some hc =>
      rw [noteRetries_turn hw]
      exact seenAfter_ne hne
  | _ => rfl

theorem RetryKept.slots_next (hx : RetryKept x ledger)
    {a : Choice Handler Oracle Disturbance} (hy : (engine svc weather).next a x = some y) :
    ∀ (j : Nat) t, y.threads[j]? = some t → ListsDue (noteRetries x a ledger) j t := by
  refine System.slots_next hx.slots hy (fun h w hstart _ => ?_) (fun j t hj hturn _ ht => ?_) ?_
  · intro now hh
    have hh : h = .task (.drain retryRow now) := hh
    subst hh
    exact ⟨[], retryRow_drainRow [], fun id hid => absurd hid List.not_mem_nil⟩
  · intro now hh
    rw [noteRetries_slot ledger (List.getElem?_eq_some_iff.mp hj).1 hturn]
    exact ht now hh
  · rintro i o h c k r w rfl ht hr hkept
    have hw : x.waiting i = some (h, c) := Config.waiting_of_get ht
    simp only [engine] at hr
    split at hr
    next =>
      rw [noteRetries_turn hw]
      intro now hh
      obtain ⟨left, hwp, hleft⟩ := hkept now hh
      obtain ⟨left', hnext, hleft'⟩ := listing_respond hx.scored hwp.1 hleft hr
      exact ⟨left', hwp.2 r left' hnext, hleft'⟩
    next => cases hr

theorem RetryKept.scored_next (hx : RetryKept x ledger) (hc : Commissioned svc x)
    {a : Choice Handler Oracle Disturbance} (hy : (engine svc weather).next a x = some y) :
    ScoredByDue y.world.store (noteRetries x a ledger).dues := by
  rcases System.next_cases hy with ⟨h, w, rfl, hw, rfl⟩ | ⟨i, o, h, c, k, r, w, rfl, ht, hr, rfl⟩ |
    ⟨d, w, rfl, hw, rfl⟩ | ⟨w, rfl, hw, rfl⟩
  · have hstore : w.store = x.world.store := (startHandler_proper hc.tasks hw).2
    change ScoredByDue w.store ledger.dues
    rw [hstore]
    exact hx.scored
  · have hw : x.waiting i = some (h, c) := Config.waiting_of_get ht
    simp only [engine] at hr
    split at hr
    next =>
      rw [noteRetries_turn hw]
      exact scoredByDue_turn hx.scored (hc.proper hw) hr
    next => cases hr
  · simp only [engine] at hw
    split at hw <;> cases hw
    cases d <;> exact hx.scored
  · simp only [engine] at hw
    split at hw <;> cases hw
    exact hx.scored

theorem mem_requeuedBy {h : Handler} {c : Cmd} {r : Redis} {seen : MessageId → Option Listing}
    {e : Requeued} (he : e ∈ requeuedBy o h c r seen) :
    ∃ a, c = .redis (.moveMessageBetweenQueues a) ∧ a.sourceQueue = .retry ∧
      e = ⟨a.messageId, h.drained, seen a.messageId⟩ := by
  unfold requeuedBy at he
  split at he
  next a =>
    split at he
    next hsource => exact ⟨a, rfl, hsource.1, List.eq_of_mem_singleton he⟩
    next => cases he
  next => cases he

theorem retryRow_staged {queue : StageQueue}
    (hq : queue ∈ enumerateStageQueues (pullPluginIds svc)) (hs : queue.stage = .retry) :
    queue = retryRow := by
  obtain ⟨p, hp⟩ := mem_enumerateStageQueues hq
  rw [hs] at hp
  cases queue
  cases hs
  cases hp
  rfl

/-- Only a drain of the row moves what waits in it. -/
theorem retryDrain_of_move {ok : Process → Choice Handler Oracle Disturbance → Prop} {j : Nat}
    {h : Handler} {a : MoveArgs} (hx : Reached svc weather ok x)
    (hw : x.waiting j = some (h, .redis (.moveMessageBetweenQueues a)))
    (hsource : a.sourceQueue = .retry) : ∃ now, h = .task (.drain retryRow now) := by
  obtain ⟨p, hp, -⟩ := Config.waiting_mem hw
  have hstage : h.stage = some .retry := by
    rcases reached_may hx hw with hm | hm
    · exact hm hsource
    · cases h with
      | task t => cases t <;> exact hm.elim
      | _ => exact hm.elim
  cases h with
  | task t =>
    cases t with
    | drain queue now =>
      have hrow := retryRow_staged ((reached_rows hx).threads _ hp) (Option.some.inj hstage)
      exact ⟨now, by rw [hrow]⟩
    | _ => cases hstage
  | _ => cases hstage

/-- Only the drain of the row requeues, and what it has listed. -/
theorem RetryKept.requeued_next (hx : RetryKept x ledger)
    (hr : Reached svc weather (fun _ _ => True) x) {a : Choice Handler Oracle Disturbance}
    (hy : (engine svc weather).next a x = some y) :
    ∀ r ∈ (noteRetries x a ledger).requeued, r.WhenDue := by
  cases a with
  | start h => exact hx.requeued
  | turn i o =>
    obtain ⟨h, c, k, r, w, ht, -⟩ := System.waiting_turn hy
    have hw : x.waiting i = some (h, c) := Config.waiting_of_get ht
    rw [noteRetries_turn hw]
    intro r hmem
    rcases List.mem_append.mp hmem with hmem | hmem
    · obtain ⟨a, rfl, hsource, rfl⟩ := mem_requeuedBy hmem
      obtain ⟨now, rfl⟩ := retryDrain_of_move hr hw hsource
      obtain ⟨left, hwp, hleft⟩ := hx.slots i _ ht now rfl
      obtain ⟨due, hseen, hle⟩ := hleft a.messageId hwp.1
      exact ⟨now, due, rfl, hseen, hle⟩
    · exact hx.requeued r hmem
  | _ => exact hx.requeued

/-- In every interleaving, whatever commands fail and whenever the process crashes: a message
leaves the retry stage for its ready queue only in a drain of the retry queue that listed it, at
most once for each time it was listed. The due time last written for it when it was listed, by
the retry that put it there or by a drain that tried it and rescored it, is then no later than
the clock reading the drain was started with. -/
theorem requeued_when_due (hx : RetryRun svc weather x ledger) :
    ∀ r ∈ ledger.requeued, r.WhenDue := by
  have hall : Reached svc weather (fun _ _ => True) x ∧ RetryKept x ledger := by
    refine hx.invariant (I := fun x ledger => Reached svc weather (fun _ _ => True) x ∧
      RetryKept x ledger) ⟨.init, retryKept_initial⟩ ?_
    rintro x y a ledger ⟨hr, hk⟩ - hy
    refine ⟨.step a hr trivial hy, ?_⟩
    exact ⟨hk.scored_next (reached_commissioned hr) hy, hk.slots_next hy, hk.requeued_next hr hy⟩
  exact hall.2.requeued

/-- The sample command fails once at reading 0, and is requeued at 900000. -/
theorem sample_requeued : ∃ x ledger, RetryRun vendorService {} x ledger ∧
    (∃ due, ledger.requeued = [⟨sampleId, some (.retry, 900000), some ⟨.retry, some due⟩⟩]) ∧
    ∀ r ∈ ledger.requeued, r.WhenDue := by
  have hrun : ((engine vendorService {}).followRecorded (fun _ _ _ => true) noteRetries
      (retriedSend sampleCreate sampleMessage) Process.initial {}).any (fun s =>
        s.2.requeued = [⟨sampleId, some (.retry, 900000), some ⟨.retry, some 2000⟩⟩]) = true := by
    decide +kernel
  obtain ⟨⟨x, ledger⟩, hs, hrequeued⟩ := (Option.any_eq_true _ _).mp hrun
  have hx : RetryRun vendorService {} x ledger := .of_follow (fun _ _ _ _ => trivial) .init hs
  exact ⟨x, ledger, hx, ⟨_, of_decide_eq_true hrequeued⟩, requeued_when_due hx⟩

end DeviceMessaging
