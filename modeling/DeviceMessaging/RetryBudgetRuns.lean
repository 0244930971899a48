import DeviceMessaging.RetryBudgetPrograms

namespace DeviceMessaging

open Effect Prog

variable {svc : Service} {s s' : World × Tally} {m : MessageId} {hash : MessageHash} {h : Handler}
  {plugin : DeliveryPlugin} {message : DeviceMessage}

/-- A message that was just picked: on its first attempt, its send was not announced. -/
structure JustPicked (s : World × Tally) (message : DeviceMessage) : Prop where
  stored : ∃ hash, s.1.store.redis.messages message.id = some hash ∧ ¬ hash.Waits
  count : message.retryCount ≠ none
  first : message.retryCount = some 0 → s.1.store.sentEvents message.id = []
  status : message.deliveryStatus = some .SENT_TO_NS

theorem fetch_inBudget {a : FetchArgs} (hb : Budget svc s) (hsource : a.sourceQueue.status = .QUEUED)
    (hdest : a.destinationQueue = .ns) (hstatus : a.newStatus = .SENT_TO_NS) :
    (redis (.fetchNextMessageInQueueAndMove a) >>= readPicked).wp (tally svc h)
      (fun picked s' => Budget svc s' ∧ ∀ message, picked = some message → JustPicked s' message)
      (fun _ => Budget svc) s := by
  rw [wp_bind, tally_plain rfl]
  obtain ⟨hb', hpicked⟩ := @Budget.fetched _ _ h "" hb _ hsource hdest hstatus
  cases hv : (s.1.store.exec (.fetchNextMessageInQueueAndMove a) "").1 with
  | error e => exact hb'
  | ok picked =>
    cases picked with
    | none => exact ⟨hb', fun _ he => by cases he⟩
    | some found =>
      obtain ⟨m, hash⟩ := found
      obtain ⟨hh, hst, n, history, hat, hfirst⟩ := hpicked m hash hv
      simp only [Ends, readPicked]
      cases hm : deserializeMessage m hash with
      | error e => exact hb'
      | ok message =>
        obtain ⟨hid, hcount, -, hst'⟩ := hat.load hm
        refine ⟨hb', fun message' he => ?_⟩
        cases he
        refine ⟨⟨hash, hid.symm ▸ hh, ?_⟩, ?_, fun hz => ?_, hst'.trans hst⟩
        · rintro (hw | hw) <;> rw [hst] at hw <;> cases hw
        · rw [hcount]
          intro he
          cases he
        · rw [hcount, Option.some.injEq] at hz
          rw [hid]
          exact hfirst (Int.natCast_eq_zero.mp hz)

theorem pickIntoNs_inBudget {node : AdmissionNode} {limit : Option ConcurrencyRateLimit}
    (hb : Budget svc s) :
    (pickIntoNs svc (.ready node) plugin limit).wp (tally svc h)
      (fun picked s' => Budget svc s' ∧ ∀ message, picked = some message → JustPicked s' message)
      (fun _ => Budget svc) s := by
  unfold pickIntoNs
  rw [wp_bind]
  refine tally_dateNow fun now => ?_
  exact fetch_inBudget hb rfl rfl rfl

theorem distributeQueue_thrifty (q : QueueKey) : Thrifty svc h (distributeQueue svc q) := by
  unfold distributeQueue
  split
  next => exact keeps_pure _
  next plugin hp =>
    obtain ⟨id, hid, -⟩ := Option.bind_eq_some_iff.mp hp
    obtain ⟨node, rfl, -⟩ := ready_of_pluginId hid
    unfold distributeWith
    refine keeps_bind (canAdmit_keeps thrifty_quiet thrifty_sweep fun _ _ => thrifty_routine trivial)
      fun admitted => ?_
    split
    next =>
      intro s hb
      rw [wp_bind]
      refine wp_mono (pickIntoNs_inBudget hb) (fun picked s' hs' => ?_) fun _ _ hb' => hb'
      obtain ⟨hb', hpicked⟩ := hs'
      cases picked with
      | none => exact hb'
      | some message =>
        have hm := hpicked message rfl
        dsimp only
        rw [wp_bind]
        have hemit : InBudget svc h (emitFirstSend svc message) s' := by
          unfold emitFirstSend
          split
          next hfirst =>
            have hz : message.retryCount = some 0 :=
              (of_decide_eq_true hfirst).resolve_right hm.count
            refine emit_inBudget hb' (fun _ m' he => ?_) fun hst _ _ => ?_
            · cases he
              exact ⟨hm.first hz, hm.stored⟩
            · exact nomatch hm.status.symm.trans hst
          next => exact hb'
        have htrack : Thrifty svc h (Prog.command (Cmd.trackSend plugin.id message) : Engine Unit) :=
          thrifty_command fun _ => nofun
        exact wp_mono hemit (fun _ s₁ hb₁ => htrack s₁ hb₁) fun _ _ hb₁ => hb₁
    next => exact keeps_pure _

theorem afterSendOne_inBudget {answer : Except VendorError String} (hb : Budget svc s)
    (hp : svc.registry.delivery plugin.id = some plugin)
    (hr : s.2.report = sendReport svc plugin.id message answer) :
    InBudget svc h (afterSendOne svc plugin message answer) s := by
  unfold sendReport at hr
  rw [hp, Option.bind_some] at hr
  unfold afterSendOne
  split
  next err =>
    rw [InBudget, wp_bind]
    refine wp_mono (retryOrFail_inBudget hb fun hskip => ?_) (fun _ _ hb' => hb') fun _ _ hb' => hb'
    exact ⟨_, hr, hskip⟩
  next x =>
    split
    next hx =>
      rw [InBudget, wp_bind]
      refine wp_mono (retryOrFail_inBudget hb fun hskip => ?_) (fun _ _ hb' => hb')
        fun _ _ hb' => hb'
      refine ⟨_, hr.trans ?_, hskip⟩
      unfold sendFailure
      dsimp only
      rw [if_pos hx]
      rfl
    next =>
      rw [InBudget, wp_bind]
      exact wp_mono (advance_thrifty _ _ _ _ s hb) (fun _ _ hb' => hb') fun _ _ hb' => hb'

theorem trackedSend_thrifty (hp : svc.registry.delivery plugin.id = some plugin)
    (message : DeviceMessage) (token : Nat) :
    Thrifty svc h (trackedSend svc plugin message token) := by
  refine keeps_bind (keeps_tryCatch ?_ fun _ => keeps_pure _) fun _ =>
    thrifty_command fun _ => nofun
  refine keeps_bind (thrifty_command fun _ => nofun) fun _ => ?_
  intro s hb
  rw [wp_bind, wp_command]
  refine ⟨trivial, fun answer ⟨w', t'⟩ hr => ?_⟩
  obtain ⟨⟨-, o, -, hr⟩, ht⟩ := hr
  cases hr
  cases ht
  exact afterSendOne_inBudget (hb.same rfl rfl rfl) hp rfl

/-- What a handler is started with counts as reported. -/
theorem handlerProgram_inBudget (hb : Budget svc s) (hr : s.2.report = h.report s.1.store.redis) :
    InBudget svc h (handlerProgram svc h) s := by
  have hspawn : ∀ tasks, Thrifty svc h (spawnAll tasks) := spawnAll_keeps thrifty_quiet
  cases h with
  | enqueue create =>
    have hp : Thrifty svc (.enqueue create) (enqueue svc create) := by
      unfold enqueue
      split
      next => exact keeps_throw _
      next => exact keeps_throw _
      next => exact keeps_throw _
      next =>
        split
        next => exact keeps_throw _
        next =>
          split
          next => exact keeps_throw _
          next => exact keeps_redis (thrifty_routine rfl)
    exact keeps_bind hp (fun _ => keeps_pure ()) s hb
  | distribute =>
    exact keeps_bind (keeps_redis (thrifty_quiet (.redis .fetchQueuesWithMessages) trivial))
      (fun queues => hspawn _) s hb
  | tick => exact keeps_bind (thrifty_quiet .dateNow trivial) (fun now => hspawn _) s hb
  | ingress pluginId event =>
    change InBudget svc _ (ingress svc pluginId event) s
    unfold ingress
    split
    next => exact hb
    next =>
      split
      next =>
        rw [InBudget, wp_bind]
        exact wp_mono (processEvent_inBudget hb hr) (fun _ _ hb' => hb') fun _ _ hb' => hb'
      next => exact hb
  | cancel correlationId =>
    refine keeps_bind ?_ (fun messages => hspawn _) s hb
    exact keeps_bind (keeps_redis (thrifty_quiet (.redis (.mgetCorrelationIndexes _)) trivial))
      fun keys => loadIndexed_keeps thrifty_quiet _
  | task t =>
    cases t with
    | drain queue now => exact drainRow_thrifty queue now s hb
    | distributeQueue q => exact distributeQueue_thrifty q s hb
    | cancelMessage message =>
      exact keeps_bind (cancelOneMessage_keeps thrifty_quiet message) (fun _ => keeps_pure _) s hb
    | send pluginId message token =>
      change InBudget svc _ (send svc pluginId message token) s
      unfold send
      split
      next => exact hb
      next plugin hp =>
        have hid := PluginRegistry.delivery_id hp
        exact trackedSend_thrifty (hid.symm ▸ hp) message token s hb

theorem startHandler_store {w w' : World} (hs : startHandler h w = some w') : w'.store = w.store := by
  unfold startHandler at hs
  split at hs
  next =>
    split at hs
    next => cases hs; rfl
    next => cases hs
  next => cases hs; rfl

theorem Budget.disturb (hb : Budget svc s) (d : Disturbance) :
    Budget svc ({ s.1 with store := s.1.store.disturb d }, s.2) := by
  refine hb.frame (fun x hash hh => ?_) (fun x q hx => ?_) (fun _ hx => hx) rfl rfl rfl
  · cases d with
    | expireMessage id => exact (update_none_cases hh).2
    | _ => exact hh
  · cases d <;> exact hx

theorem AtomicStep.budget (hb : Budget svc s) (hs : AtomicStep svc s s') : Budget svc s' := by
  cases hs with
  | @handle s' h w r hs hr =>
    have hb' : Budget svc (w, { s.2 with report := h.report w.store.redis }) :=
      hb.same (startHandler_store hs) rfl rfl
    have he := wp_runs (handlerProgram_inBudget hb' rfl) hr
    cases r with
    | ok u => exact he
    | error e => exact he
  | restart => exact hb.same rfl rfl rfl
  | disturb d => exact hb.disturb d

theorem Atomically.budget (hs : Atomically svc s) : Budget svc s := by
  induction hs with
  | refl => exact budget_initial
  | tail _ hstep ih => exact hstep.budget ih

section Scripts

/-- A step with the answers its commands get. -/
inductive AtomicMove
  | handle (h : Handler) (os : List Oracle)
  | restart
  | disturb (d : Disturbance)

def calmRespond (o : Oracle) (c : Cmd) (w : World) : Option (Reply c × World) :=
  if o.fault = none then respond o c w else none

theorem calmRespond_exec (o : Oracle) (c : Cmd) (w : World) (r : Reply c) (w' : World)
    (he : calmRespond o c w = some (r, w')) : calmExec everyPoll w c r w' := by
  unfold calmRespond at he
  split at he
  next ho =>
    refine ⟨?_, o, ho, he⟩
    unfold PollRule.Meets
    split <;> trivial
  next => cases he

def AtomicMove.next (svc : Service) (a : AtomicMove) (s : World × Tally) : Option (World × Tally) :=
  match a with
  | .handle h os => (startHandler h s.1).bind fun w =>
      ((handlerProgram svc h).play (observedPlay calmRespond (Tally.note svc h)) os
        (w, { s.2 with report := h.report w.store.redis })).map Prod.snd
  | .restart => some (.boot s.1.store, s.2)
  | .disturb d => some ({ s.1 with store := s.1.store.disturb d }, s.2)

def AtomicMove.follow (svc : Service) (as : List AtomicMove) (s : World × Tally) :
    Option (World × Tally) :=
  match as with
  | [] => some s
  | a :: as => (a.next svc s).bind (AtomicMove.follow svc as)

theorem AtomicStep.of_next {a : AtomicMove} (hn : a.next svc s = some s') : AtomicStep svc s s' := by
  cases a with
  | handle h os =>
    obtain ⟨w, hw, hn⟩ := Option.bind_eq_some_iff.mp hn
    obtain ⟨⟨r, s'⟩, hp, rfl⟩ := Option.map_eq_some_iff.mp hn
    exact .handle h hw (runs_of_play (observedExec_of_play calmRespond_exec) hp)
  | restart =>
    cases hn
    exact .restart
  | disturb d =>
    cases hn
    exact .disturb d

theorem Atomically.of_follow {as : List AtomicMove} (hs : Atomically svc s)
    (hf : AtomicMove.follow svc as s = some s') : Atomically svc s' := by
  induction as generalizing s with
  | nil => exact Option.some.inj hf ▸ hs
  | cons a as ih =>
    obtain ⟨s₁, hn, hf⟩ := Option.bind_eq_some_iff.mp hf
    exact ih (hs.tail (.of_next hn)) hf

/-- The sample command is picked, and its send is answered without a delivery id. -/
def sampleRefused : List AtomicMove :=
  [.handle (.enqueue sampleCreate) [{ id := sampleId }], .handle .distribute granted,
    .handle (.task (.distributeQueue sampleQueue)) granted,
    .handle (.task (.send "calin-chirpstack" sampleMessage 0)) granted]

end Scripts

/-- A message is picked at most once more than it may be retried, its hash records
a failure for each retry and none of them as the last, it is failed for good only
with a cause, and its send is announced at most once. -/
structure RetryBudget (svc : Service) (s : World × Tally) (m : MessageId) : Prop where
  picks : s.2.picks.count m ≤ svc.delivery.maxRetries + 1
  history : ∀ hash, s.1.store.redis.messages m = some hash →
    ∃ n history, hash.AtRetry svc.delivery.maxRetries n history
  failures : ∀ record ∈ s.1.store.persisted,
    record.event.message.deliveryStatus = .DELIVERY_FAILED → record.event.message.id = some m →
      ∃ f ∈ s.2.failures, f.record = record ∧ f.Justified svc m
  announced : (s.1.store.sentEvents m).length ≤ 1

/-- Every message of every run stays within its budget. -/
theorem atomically_retry_budget (hs : Atomically svc s) (m : MessageId) : RetryBudget svc s m := by
  have hb := hs.budget
  refine ⟨(hb.balance m).picks, fun hash hh => ?_, fun record hr hst hm => ?_, (hb.balance m).sent⟩
  · obtain ⟨n, history, hat, -⟩ := ((hb.balance m).stored hash hh).retry
    exact ⟨n, history, hat⟩
  · obtain ⟨f, hf, rfl⟩ := hb.recorded record hr hst
    exact ⟨f, hf, rfl, hb.failures f hf m hm⟩

/-- The empty delivery id: one pick, one announcement, and a failure with its cause. -/
theorem refused_retry_budget :
    ∃ s : World × Tally, (s.2.picks = [sampleId] ∧ (s.1.store.sentEvents sampleId).length = 1 ∧
      s.2.failures.length = 1) ∧ RetryBudget vendorService s sampleId := by
  have hrun : (AtomicMove.follow vendorService sampleRefused (.boot .empty, {})).any (fun s =>
      s.2.picks = [sampleId] ∧ (s.1.store.sentEvents sampleId).length = 1 ∧
        s.2.failures.length = 1) = true := by
    decide +kernel
  obtain ⟨s, hf, hs⟩ := (Option.any_eq_true _ _).mp hrun
  exact ⟨s, of_decide_eq_true hs, atomically_retry_budget (.of_follow .refl hf) sampleId⟩

end DeviceMessaging
