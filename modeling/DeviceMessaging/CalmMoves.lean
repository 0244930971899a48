import DeviceMessaging.AccountedWrites

namespace DeviceMessaging

open Effect

variable {svc : Service} {settled : DeliveryPattern → Prop} {ledger : List Issued}
  {polls : PollRule} {w : World} {m : MessageId} {a : Attempt} {plugin : DeliveryPlugin}

/-- No Redis command of the program fails, and it throws nothing. -/
abbrev NoThrow (_ : String) (_ : World) : Prop :=
  False

theorem buildWebhookEvent_id {pm : PartialMessage} {now : Nat} {ev : String} {event : WebhookEvent}
    (h : buildWebhookEvent pm now ev = .ok event) :
    event.message.id = pm.id ∧ pm.deliveryStatus = some event.message.deliveryStatus := by
  unfold buildWebhookEvent at h
  split at h <;> try cases h
  next p st dev _ hst _ => exact ⟨rfl, hst⟩

/-- An emitted event concerns the message it carries the id of, and only as far as
it ends it. -/
theorem emit_calm (ledger : List Issued) (pm : PartialMessage) :
    (emitDeliveryEvent svc pm).wp (calm polls)
      (fun _ w' => (∀ x, Untouched ledger x w w') ∧
        ∀ x, (pm.id = some x → ∀ st, pm.deliveryStatus = some st → ¬ st.IsTerminal) →
          Uninvolved ledger x w w') NoThrow w := by
  have hnone : (∀ x, Untouched ledger x w w) ∧
      ∀ x, (pm.id = some x → ∀ st, pm.deliveryStatus = some st → ¬ st.IsTerminal) →
        Uninvolved ledger x w w := ⟨fun _ => .refl, fun _ _ => .refl⟩
  unfold emitDeliveryEvent
  split
  next =>
    unfold storeAndEmit
    simp only [Prog.wp_bind, wp_dateNow, wp_ulid]
    intro now ev
    cases hb : buildWebhookEvent pm now ev with
    | error e => exact hnone
    | ok event =>
      simp only [Prog.wp_bind, wp_dateNow]
      intro later
      rw [wp_redis_plain rfl]
      obtain ⟨hid, hst⟩ := buildWebhookEvent_id hb
      have hs : ∀ x, Spared ledger x w.store.redis
          ((RedisCmd.webhookEnqueue ⟨event, 0⟩ later).run "" w.store.redis).2 :=
        fun x => ⟨rfl, fun _ => Iff.rfl, fun _ h => h, fun _ h => h, fun _ h => h, fun _ _ h => h⟩
      refine ⟨fun x => .after (hs x) (fun he => by cases he),
        fun x hx => .after (hs x) (fun he => by cases he) fun record _ he => ?_⟩
      cases he
      unfold WebhookStoredRecord.terminalOf
      split
      next hterm =>
        rw [hid]
        intro hxm
        exact hx hxm _ hst hterm
      next =>
        intro he
        cases he
  next => exact hnone

theorem stage_mem_purgeQueues {message : DeviceMessage} {stage : StageName}
    (hp : message.pluginId = some a.plugin.id) :
    stageKeyFor stage a.plugin.id ∈ purgeQueues message plugin := by
  refine List.mem_append_left _ ?_
  rw [hp]
  cases stage <;> simp [stageKeyFor, stages, enumerateStageKeys, enumerateStageQueues, allStages]

/-- A purge covers the queue of every message its plugin owns, and of every one
that is past its ready queue. -/
theorem station_mem_purgeQueues {h : MessageHash} {message : DeviceMessage}
    (hst : Standing svc h a) (hl : Snapshot m h a message)
    (hown : a.status = .QUEUED → plugin = a.plugin) :
    ∀ q, a.station = some q → q ∈ purgeQueues message plugin := by
  intro q hq
  by_cases hs : a.status = .QUEUED
  · rw [station_queued hs, Option.some.injEq] at hq
    refine List.mem_append_right _ (List.mem_singleton.mpr ?_)
    rw [hown hs, hl.readyQueue, hq]
  · unfold Attempt.station stationKey at hq
    rw [if_neg hs] at hq
    obtain ⟨stage, -, rfl⟩ := Option.map_eq_some_iff.mp hq
    exact stage_mem_purgeQueues (hl.pluginId.trans (congrArg some hst.plugin_id))

theorem purge_calm {h : MessageHash} {message : DeviceMessage} (hst : Standing svc h a)
    (hp : Places settled ledger w m h a) (hl : Snapshot m h a message)
    (hsend : w.outstanding m = []) (hown : a.status = .QUEUED → plugin = a.plugin) :
    (purge message plugin).wp (calm polls) (fun _ w' => Gone w' m ∧ Only ledger m w w') NoThrow w := by
  unfold purge
  rw [wp_redis_plain rfl]
  refine ⟨⟨hp.purged hl (station_mem_purgeQueues hst hl hown), hsend, fun _ => ?_⟩, fun x hx => ?_⟩
  · rw [← hl.id]
    exact List.mem_cons_self
  · refine .after (spared_cleanup (hl.id ▸ hx) (hp.stale hl hx)) ?_ fun _ _ he => nomatch he
    rw [← hl.id] at hx
    exact fun he => hx (Option.some.inj he).symm

/-- The retry delay is computed without fail from a readable count. -/
theorem retryWait_calm {n : Int} {Q : Option ℚ → World → Prop} {delivery : DeliveryConfig}
    {tuning : PluginTuning} {E : String → World → Prop} (hQ : ∀ ms, Q (some ms) w) :
    ((stages .retry).entryWaitMs ⟨tuning, delivery, some n⟩).wp (calm polls) Q E w := by
  change (calculateBackoffDelay (some n) delivery).wp (calm polls) Q E w
  unfold calculateBackoffDelay
  simp only [Prog.wp_bind, wp_mathRandom]
  intro x _
  exact hQ _

theorem mem_of_score {s : SortedSet ℚ MessageId} {k : ℚ} (hs : s.score m = some k) : m ∈ s := by
  by_contra hn
  rw [SortedSet.score_eq_none.mpr hn] at hs
  cases hs

theorem enterRetry_calm {q : QueueKey} {history : List FailureReason}
    (hs : StandsAt svc settled ledger w m a) (hsend : w.outstanding m = []) :
    (enterRetry svc m q (some a.count) history plugin).wp (calm polls)
      (fun entered w' =>
        (entered = false ∧ m ∉ w.store.redis.queues q ∧ w' = w) ∨
        (entered = true ∧ m ∈ w.store.redis.queues q ∧ Only ledger m w w' ∧
          StandsAt svc settled ledger w' m a.retried)) NoThrow w := by
  obtain ⟨h, hh, hst, hp⟩ := hs
  unfold enterRetry
  rw [Prog.wp_bind, wp_zscore]
  cases hscore : (w.store.redis.queues q).score m with
  | none => exact .inl ⟨rfl, SortedSet.score_eq_none.mp hscore, rfl⟩
  | some k =>
    have hq := mem_of_score hscore
    simp only [Prog.wp_bind, wp_dateNow]
    intro now
    refine retryWait_calm fun ms => ?_
    rw [wp_hmget, hh, wp_redis_plain rfl]
    refine .inr ⟨rfl, hq, fun x hx => ?_, ?_⟩
    · exact .after (spared_enterRetry hx (hp.foreign hx)) (fun he => by cases he)
        fun _ _ he => by cases he
    · have hmsgs := enterRetry_messages (EnterRetryMulti.mk m q (dueAfter now (some ms))
        (succRetryCount (some a.count)) history (truthy h.deliveryQueueId)
        h.concurrencyRateLimitKey) w.store.redis
      rw [hh, Option.getD_some] at hmsgs
      exact ⟨_, (congrFun hmsgs m).trans (Function.update_self ..), hst.retried rfl rfl,
        hp.retried hq rfl hsend rfl rfl⟩

theorem getMessageById_calm {h : MessageHash} {message : DeviceMessage}
    {Q : Option DeviceMessage → World → Prop} {E : String → World → Prop}
    (hh : w.store.redis.messages m = some h) (hm : deserializeMessage m h = .ok message)
    (hQ : Q (some message) w) : (getMessageById m).wp (calm polls) Q E w := by
  unfold getMessageById
  rw [Prog.wp_bind, wp_hgetall, hh]
  simp only [readHash, Option.map_some, readPicked, hm]
  exact hQ

/-- How an attempt that failed leaves its message: ended for good, entered into
retry, or as it was when it is not in the queue it is said to be in. -/
inductive Failed (svc : Service) (settled : DeliveryPattern → Prop) (ledger : List Issued)
    (w : World) (m : MessageId) (a : Attempt) (q : QueueKey) (context : FailureContext) :
    StageOutcome → World → Prop
  | removed {w' : World} (hf : isFinalFailure svc context (some a.count) = true)
    (hg : Gone w' m) (ho : Only ledger m w w') : Failed svc settled ledger w m a q context .removed w'
  | retried {w' : World} (hf : isFinalFailure svc context (some a.count) = false)
    (hq : m ∈ w.store.redis.queues q) (hs : StandsAt svc settled ledger w' m a.retried)
    (ho : Only ledger m w w') : Failed svc settled ledger w m a q context .movedOn w'
  | absent (hf : isFinalFailure svc context (some a.count) = false)
    (hq : m ∉ w.store.redis.queues q) : Failed svc settled ledger w m a q context .orphaned w

/-- A terminal event of the message, and then its purge. -/
theorem emit_purge_calm (polls : PollRule) {α : Type} (v : α) {h : MessageHash}
    {message : DeviceMessage} {pm : PartialMessage} (hst : Standing svc h a) (hp : Places settled ledger w m h a)
    (hl : Snapshot m h a message) (hsend : w.outstanding m = [])
    (hown : a.status = .QUEUED → plugin = a.plugin) (hid : pm.id = some m) :
    (do
      emitDeliveryEvent svc pm
      purge message plugin
      return v : Engine α).wp (calm polls) (fun u w' => u = v ∧ Gone w' m ∧ Only ledger m w w')
        NoThrow w := by
  rw [Prog.wp_bind]
  refine Prog.wp_mono (emit_calm ledger pm) (fun _ w₁ hw₁ => ?_) fun _ _ h => h
  obtain ⟨hun, hinv⟩ := hw₁
  have honly : Only ledger m w w₁ := by
    intro x hx
    refine hinv x fun he => ?_
    exact absurd (Option.some.inj (he.symm.trans hid)) hx
  rw [Prog.wp_bind]
  have hsend₁ : w₁.outstanding m = [] := (hun m).outstanding.trans hsend
  refine Prog.wp_mono (purge_calm hst (hp.untouched (hun m)) hl hsend₁ hown) (fun _ w₂ hw₂ => ?_)
    fun _ _ h => h
  exact ⟨rfl, hw₂.1, honly.trans hw₂.2⟩

theorem retryOrFail_calm {q : QueueKey} {context : FailureContext}
    (hs : StandsAt svc settled ledger w m a) (hsend : w.outstanding m = [])
    (hown : a.status = .QUEUED → plugin = a.plugin) :
    (retryOrFail svc m q context plugin).wp (calm polls)
      (Failed svc settled ledger w m a q context) NoThrow w := by
  obtain ⟨h, hh, hst, hp⟩ := hs
  obtain ⟨message, hm, hl⟩ := hst.load m
  unfold retryOrFail
  rw [Prog.wp_bind]
  refine getMessageById_calm hh hm ?_
  simp only [Prog.wp_bind, wp_dateNow, hl.count]
  intro timestamp
  split
  next hf =>
    have hpm : some message.id = some m := congrArg some hl.id
    refine Prog.wp_mono (emit_purge_calm polls StageOutcome.removed hst hp hl.toSnapshot hsend hown
      hpm) (fun v w' hv => ?_) fun _ _ h => h
    obtain ⟨rfl, hg, ho⟩ := hv
    exact .removed hf hg ho
  next hf =>
    have hf : isFinalFailure svc context (some a.count) = false := Bool.eq_false_iff.mpr hf
    rw [Prog.wp_bind]
    refine Prog.wp_mono (enterRetry_calm ⟨h, hh, hst, hp⟩ hsend) (fun entered w' he => ?_)
      fun _ _ h => h
    rcases he with ⟨rfl, hq, rfl⟩ | ⟨rfl, hq, ho, hs⟩
    · exact .absent hf hq
    · exact .retried hf hq hs ho

/-- A stage other than retry has a wait of its own. -/
theorem entryWait_calm {stage : StageName} {c : StageEntryContext}
    {Q : Option ℚ → World → Prop} {E : String → World → Prop} (hne : stage ≠ .retry)
    (hQ : ∀ ms, Q (some ms) w) : ((stages stage).entryWaitMs c).wp (calm polls) Q E w := by
  cases stage with
  | retry => exact absurd rfl hne
  | _ => exact hQ _

/-- A move that finds its message in the source queue. -/
theorem move_calm (polls : PollRule) (args : MoveArgs) {score : ℚ} {h : MessageHash}
    (hh : w.store.redis.messages args.messageId = some h) (hst : Standing svc h a)
    (hp : Places settled ledger w args.messageId h a)
    (hq : args.messageId ∈ w.store.redis.queues args.sourceQueue)
    (hscore : args.destinationScore = some score) (hsend : w.outstanding args.messageId = [])
    (hstation : (a.moved args.deliveryStatus).station = some args.destinationQueue)
    (hfree : args.deliveryStatus = .QUEUED ∨ args.deliveryStatus = .TO_RETRY →
      h.concurrencyRateLimitKey = none)
    (hcarry : args.Carries ledger a) :
    (redis (.moveMessageBetweenQueues args)).wp (calm polls)
      (fun moved w' => moved = true ∧ Only ledger args.messageId w w' ∧
        StandsAt svc settled ledger w' args.messageId (a.moved args.deliveryStatus)) NoThrow w := by
  have hrun := hash_after_move "" hh hq hscore
  rw [wp_redis_plain rfl]
  have hv : (w.store.exec (.moveMessageBetweenQueues args) "").1 = .ok true :=
    congrArg Prod.fst hrun
  rw [hv]
  have honly : Only ledger args.messageId w (w.after (.moveMessageBetweenQueues args) "") := by
    intro x hx
    exact .after (spared_move hx (hcarry.not_exclusive hx)) nofun fun _ _ he => nomatch he
  refine ⟨rfl, honly, movedHash args h, ?_, hst.moved args (by simp [hstation]) hfree,
    hp.moved hh hq hscore hsend hstation hcarry⟩
  have hr : (w.after (.moveMessageBetweenQueues args) "").store.redis =
      moveClaimed args score (w.store.redis.zrem args.sourceQueue args.messageId) :=
    congrArg Prod.snd hrun
  rw [hr]
  simp [moveClaimed, movedHash, hh]

/-- A move whose message is not in the source queue changes no key. -/
theorem move_absent_calm (ledger : List Issued) {args : MoveArgs}
    (hq : args.messageId ∉ w.store.redis.queues args.sourceQueue) :
    (redis (.moveMessageBetweenQueues args)).wp (calm polls)
      (fun moved w' => moved = false ∧ w'.store.redis = w.store.redis ∧ ∀ x, Uninvolved ledger x w w')
      NoThrow w := by
  have hrun : (RedisCmd.run (.moveMessageBetweenQueues args) "" w.store.redis) =
      (.ok false, w.store.redis) := by
    simp [RedisCmd.run, moveMessageBetweenQueues, hq]
  have hv : (w.store.exec (.moveMessageBetweenQueues args) "").1 = .ok false :=
    congrArg Prod.fst hrun
  have hr : (RedisCmd.run (.moveMessageBetweenQueues args) "" w.store.redis).2 = w.store.redis :=
    congrArg Prod.snd hrun
  rw [wp_redis_plain rfl, hv]
  refine ⟨rfl, hr, fun x => .after ?_ (fun he => by cases he) fun _ _ he => by cases he⟩
  rw [hr]
  exact .refl

end DeviceMessaging
