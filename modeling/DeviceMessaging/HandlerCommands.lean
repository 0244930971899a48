import DeviceMessaging.EffectCommands
import DeviceMessaging.CalmDrain
import DeviceMessaging.PlainPrograms
import DeviceMessaging.ProperRuns

namespace DeviceMessaging

open Effect Prog

/-- A retry out of one of these queues, within the retries there are. -/
def EnterRetryMulti.Within (svc : Service) (K : QueueKey → Prop) (a : EnterRetryMulti) : Prop :=
  K a.fromKey ∧ ∀ n, a.retryCount = some n → n ≤ svc.delivery.maxRetries

/-- A record as `storeAndEmit` makes it. -/
def WebhookStoredRecord.Emitted (record : WebhookStoredRecord) : Prop :=
  record.event.pluginId ≠ "" ∧ record.attemptCount = 0

/-- The commands that apply an outcome to messages in these queues, in a drain of the stage
or elsewhere. What waits in the retry queue is moved on by its own drain only. -/
def Cmd.Applies (svc : Service) (K : QueueKey → Prop) (own : Option StageName) (c : Cmd) : Prop :=
  match c with
  | .redis (.enterRetry a) => a.Within svc K
  | .redis (.moveMessageBetweenQueues a) => a.sourceQueue = .retry → own = some .retry
  | .redis (.zaddXx q _ _) => q = .retry → own = some .retry
  | .redis (.webhookEnqueue record _) => record.Emitted
  | .fetchStatus .. => True
  | .beginDrain _ => False
  | .endDrain _ => False
  | .spawn _ => False
  | c => c.Quiet

/-- The stage queues, and the one a drain was handed. -/
def Handler.Sources (h : Handler) (q : QueueKey) : Prop :=
  (∃ stage p, q = stageKeyFor stage p) ∨ ∃ queue now, h = .task (.drain queue now) ∧ q = queue.key

/-- The command of a retry, and of a poll, whose programs are looked at as a whole. -/
def Cmd.isWhole (c : Cmd) : Bool :=
  match c with
  | .redis (.enterRetry _) => true
  | .fetchStatus .. => true
  | _ => false

/-- The stage a handler drains. -/
def Handler.stage (h : Handler) : Option StageName :=
  match h with
  | .task (.drain queue _) => some queue.stage
  | _ => none

/-- The commands each handler may issue. -/
def Handler.May (svc : Service) (h : Handler) (c : Cmd) : Prop :=
  c.Applies svc h.Sources h.stage ∨
    match h, c with
    | .enqueue create, .redis (.enqueueDeviceMessage dto _) => dto = create
    | .distribute, .spawn (.distributeQueue _) => True
    | .tick, .spawn (.drain queue _) => queue ∈ enumerateStageQueues (pullPluginIds svc)
    | .cancel _, .spawn (.cancelMessage _) => True
    | .task (.drain queue _), .beginDrain q => q = queue.key
    | .task (.drain queue _), .endDrain q => q = queue.key
    | .task (.distributeQueue q), .redis (.lockQueueForTimeMs p _) => p = q
    | .task (.distributeQueue _), .redis (.sremRateLimit _ _) => True
    | .task (.distributeQueue q), .redis (.fetchNextMessageInQueueAndMove a) => a.sourceQueue = q
    | .task (.distributeQueue _), .trackSend _ _ => True
    | .task (.send _ _ _), .sendOne _ _ => True
    | .task (.send _ _ _), .sendOneResult _ _ => True
    | .task (.send _ m token), .settleSend id n => id = m.id ∧ n = token
    | _, _ => False

/-- What keeps a retry that is left to make out of these queues. -/
def KeepsRetries (svc : Service) (K : QueueKey → Prop) {S : Type} (M : Monitor Cmd Reply S)
    (J : S → Prop) : Prop :=
  ∀ (q : QueueKey) (plugin : DeliveryPlugin) (id : MessageId) (n : ParsedInt)
    (history : List FailureReason), K q → (∀ k, n = some k → k < svc.delivery.maxRetries) →
    (enterRetry svc id q n history plugin).Keeps M J

/-- What keeps a poll for a plugin that is registered. -/
def KeepsPolls (svc : Service) {S : Type} (M : Monitor Cmd Reply S) (J : S → Prop) : Prop :=
  ∀ c : StageActionContext, svc.registry.delivery c.plugin.id = some c.plugin →
    (pollTask svc c).Keeps M J

variable {svc : Service} {K : QueueKey → Prop} {own : Option StageName} {plugin : DeliveryPlugin}
  {S : Type} {M : Monitor Cmd Reply S} {J : S → Prop}

theorem issues_redis {A : Cmd → Prop} {c : RedisCmd} (hc : A (.redis c)) :
    (redis c).Issues A :=
  keeps_redis (issues_command hc)

theorem buildWebhookEvent_named {pm : PartialMessage} {now : Nat} {eventId : String}
    {event : WebhookEvent} (hb : buildWebhookEvent pm now eventId = .ok event) :
    event.pluginId ≠ "" := by
  unfold buildWebhookEvent at hb
  split at hb
  next => cases hb
  next => cases hb
  next => cases hb
  next pluginId status device hp hs hd =>
    cases hb
    obtain ⟨-, hne⟩ := Option.filter_eq_some_iff.mp hp
    exact of_decide_eq_true hne

/-- A failure that is not final leaves a retry to make. -/
theorem retries_left {context : FailureContext} {n : ParsedInt}
    (hf : ¬ isFinalFailure svc context n = true) {k : Int} (hk : n = some k) :
    k < svc.delivery.maxRetries := by
  subst hk
  simp only [isFinalFailure, Option.any_some, Bool.or_eq_true, decide_eq_true_eq, not_or] at hf
  omega

theorem owner_registered {m : DeviceMessage} (hp : owner svc m = some plugin) :
    svc.registry.delivery plugin.id = some plugin := by
  obtain ⟨id, -, hid⟩ := Option.bind_eq_some_iff.mp hp
  rwa [PluginRegistry.delivery_id hid]

theorem stageKeyFor_retry {stage : StageName} {p : PluginId} (h : stageKeyFor stage p = .retry) :
    stage = .retry := by
  cases stage with
  | retry => rfl
  | _ => cases h

theorem nextStage_from {pattern : DeliveryPattern} {fromStage next : StageName}
    (hn : nextStage pattern fromStage = some next) : fromStage ≠ .retry := by
  rintro rfl
  cases pattern <;> cases hn

/-! What every command keeps, every retry and every poll, is kept by the programs that apply an
outcome. -/

section Applying

variable (hcmd : ∀ c : Cmd, c.Applies svc K own → c.isWhole = false →
    (Prog.command c : Engine (Reply c)).Keeps M J)

include hcmd

theorem getMessageById_applies (id : MessageId) : (getMessageById id).Keeps M J :=
  keeps_bind (keeps_redis (hcmd (.redis (.hgetall id)) trivial rfl)) fun _ => readPicked_keeps _

theorem entryWaitMs_applies (name : StageName) (c : StageEntryContext) :
    ((stages name).entryWaitMs c).Keeps M J := by
  cases name with
  | retry => exact keeps_bind (hcmd .mathRandom trivial rfl) fun _ => keeps_pure _
  | _ => exact keeps_pure _

theorem purge_applies (m : DeviceMessage) : (purge m plugin).Keeps M J :=
  keeps_redis (hcmd (.redis (.messageFullCleanup m _)) trivial rfl)

theorem emit_applies (pm : PartialMessage) : (emitDeliveryEvent svc pm).Keeps M J := by
  unfold emitDeliveryEvent
  split
  next =>
    unfold storeAndEmit
    refine keeps_bind (hcmd .dateNow trivial rfl) fun occurredAt => ?_
    refine keeps_bind (hcmd .ulid trivial rfl) fun eventId => ?_
    cases hb : buildWebhookEvent pm occurredAt eventId with
    | error e => exact keeps_pure ()
    | ok event =>
      have hemitted : WebhookStoredRecord.Emitted ⟨event, 0⟩ := ⟨buildWebhookEvent_named hb, rfl⟩
      refine keeps_bind (hcmd .dateNow trivial rfl) fun now => ?_
      exact keeps_redis (hcmd (.redis (.webhookEnqueue _ now)) hemitted rfl)
  next => exact keeps_pure ()

theorem advance_applies (id : MessageId) (fromStage : StageName) (x : Option String)
    (n : ParsedInt) : (advance svc id plugin fromStage x n).Keeps M J := by
  unfold advance
  split
  next => exact keeps_throw _
  next next hn =>
    refine keeps_bind (hcmd .dateNow trivial rfl) fun now => ?_
    refine keeps_bind (entryWaitMs_applies hcmd _ _) fun wait => ?_
    refine keeps_redis (hcmd (.redis (.moveMessageBetweenQueues _)) (fun hsource => ?_) rfl)
    exact absurd (stageKeyFor_retry hsource) (nextStage_from hn)

theorem requeue_applies (hown : own = some .retry) (id : MessageId) (fromKey toKey : QueueKey)
    (priority : ParsedInt) : (requeue id fromKey toKey priority).Keeps M J := by
  refine keeps_bind (keeps_redis (hcmd (.redis (.moveMessageBetweenQueues _)) (fun _ => hown) rfl))
    fun moved => ?_
  cases moved with
  | false => exact keeps_pure _
  | true =>
    exact keeps_bind (keeps_redis (hcmd (.redis (.saddDistribute _)) trivial rfl))
      fun _ => keeps_pure _

variable (hretry : KeepsRetries svc K M J)

include hretry

theorem retryOrFail_applies {q : QueueKey} (hq : K q) (id : MessageId) (context : FailureContext) :
    (retryOrFail svc id q context plugin).Keeps M J := by
  unfold retryOrFail
  refine keeps_bind (getMessageById_applies hcmd id) fun message => ?_
  cases message with
  | none => exact keeps_pure _
  | some m =>
    refine keeps_bind (hcmd .dateNow trivial rfl) fun timestamp => ?_
    dsimp only
    split
    next =>
      refine keeps_bind (emit_applies hcmd _) fun _ => ?_
      exact keeps_bind (purge_applies hcmd m) fun _ => keeps_pure _
    next hf =>
      exact keeps_bind (hretry q plugin id _ _ hq fun k hk => retries_left hf hk)
        fun _ => keeps_pure _

variable (hstage : ∀ stage p, K (stageKeyFor stage p))

include hstage

theorem processIndexed_applies (id : MessageId) (event : ParsedIncomingEvent) :
    (processIndexed svc id event plugin).Keeps M J := by
  unfold processIndexed
  split
  next => exact keeps_bind (advance_applies hcmd _ _ _ _) fun _ => keeps_pure _
  next =>
    split
    next =>
      refine keeps_bind (getMessageById_applies hcmd id) fun message => ?_
      cases message with
      | none => exact keeps_pure _
      | some m =>
        dsimp only
        split
        next => exact keeps_throw _
        next =>
          split
          next => exact keeps_pure _
          next => exact retryOrFail_applies hcmd hretry (hstage _ _) _ _
    next =>
      split
      next => exact keeps_pure _
      next =>
        refine keeps_bind (getMessageById_applies hcmd id) fun message => ?_
        cases message with
        | none => exact keeps_pure _
        | some m =>
          refine keeps_bind (hcmd .dateNow trivial rfl) fun timestamp => ?_
          refine keeps_bind (emit_applies hcmd _) fun _ => ?_
          exact keeps_bind (purge_applies hcmd m) fun _ => keeps_pure _

theorem processEvent_applies (event : ParsedIncomingEvent) :
    (processEvent svc event plugin).Keeps M J := by
  unfold processEvent
  split
  next => exact keeps_bind (emit_applies hcmd _) fun _ => keeps_pure _
  next =>
    split
    next => exact keeps_pure _
    next x _ =>
      refine keeps_bind (keeps_bind (keeps_redis (hcmd (.redis (.getExternalIndex x)) trivial rfl))
        fun _ => keeps_pure _) fun id => ?_
      cases id with
      | none => exact keeps_pure _
      | some id => exact processIndexed_applies hcmd hretry hstage id event

theorem afterSendOne_applies (m : DeviceMessage) (answer : Except VendorError String) :
    (afterSendOne svc plugin m answer).Keeps M J := by
  have hfail : ∀ context, (do
      let _ ← retryOrFail svc m.id .ns context plugin
      return () : Engine Unit).Keeps M J := fun context =>
    keeps_bind (retryOrFail_applies hcmd hretry (hstage .ns "") _ context) fun _ => keeps_pure _
  unfold afterSendOne
  split
  next => exact hfail _
  next =>
    split
    next => exact hfail _
    next => exact keeps_bind (advance_applies hcmd _ _ _ _) fun _ => keeps_pure _

variable (hpoll : KeepsPolls svc M J)

include hpoll

theorem stageActions_applies (name : StageName) (hown : name = .retry → own = some .retry)
    {c : StageActionContext} (hq : K c.queueKey)
    (hreg : svc.registry.delivery c.plugin.id = some c.plugin) :
    (stageActions svc name c).Keeps M J := by
  have hout : ∀ (q : QueueKey) (reason : StageName), K q →
      (timeOut svc reason q c).Keeps M J :=
    fun q _ hq => retryOrFail_applies hcmd hretry hq _ _
  cases name with
  | ns =>
    refine keeps_bind (hcmd (.hasInFlightSend _) trivial rfl) fun held => ?_
    cases held with
    | true => exact keeps_pure _
    | false => exact hout .ns .ns (hstage .ns "")
  | relayNode =>
    change (relayNodeAction svc c).Keeps M J
    unfold relayNodeAction
    split
    next =>
      refine keeps_bind (keeps_bind (hcmd (.getRemoteStatus _ _) trivial rfl) fun answer => ?_)
        fun queued => ?_
      · cases answer <;> exact keeps_pure _
      · split
        next => exact keeps_pure _
        next => exact hout _ _ hq
    next => exact hout _ _ hq
  | device => exact hout _ _ hq
  | awaitingTask =>
    change (awaitingTaskAction svc c).Keeps M J
    unfold awaitingTaskAction
    split
    next =>
      refine keeps_bind (keeps_bind (hcmd .dateNow trivial rfl) fun timestamp => ?_)
        fun _ => keeps_pure _
      exact keeps_bind (emit_applies hcmd _) fun _ => purge_applies hcmd _
    next =>
      split
      next => exact keeps_pure _
      next =>
        split
        next => exact keeps_pure _
        next => exact hpoll c hreg
  | retry => exact keeps_bind (requeue_applies hcmd (hown rfl) _ _ _ _) fun _ => keeps_pure _

theorem drainMember_applies {queue : StageQueue} (hown : queue.stage = .retry → own = some .retry)
    (hq : K queue.key) (now : Nat) (id : MessageId) :
    (drainMember svc queue now id).Keeps M J := by
  have hscrub : (do
      let _ ← redis (.removeMessageFromQueue queue.key id)
      return () : Engine Unit).Keeps M J :=
    keeps_bind (keeps_redis (hcmd (.redis (.removeMessageFromQueue _ _)) trivial rfl))
      fun _ => keeps_pure _
  unfold drainMember
  refine keeps_bind (getMessageById_applies hcmd id) fun message => ?_
  cases message with
  | none => exact hscrub
  | some m =>
    dsimp only
    split
    next => exact hscrub
    next plugin howner =>
      have hreg := owner_registered howner
      refine keeps_bind (p := decodeTime svc id) ?_ fun time => ?_
      · unfold decodeTime
        split
        next => exact keeps_pure _
        next => exact keeps_throw _
      have hact : (stageActions svc queue.stage ⟨queue.key, m, plugin, (now : Int) - time⟩).Keeps
          M J := stageActions_applies hcmd hretry hstage hpoll _ hown hq hreg
      refine keeps_bind (keeps_tryCatch hact fun _ => keeps_pure _) fun outcome => ?_
      cases outcome with
      | orphaned => exact hscrub
      | rescheduled =>
        refine keeps_bind (p := rescheduleWaitMsFor queue.stage _) ?_ fun wait => ?_
        · unfold rescheduleWaitMsFor
          split
          next => exact keeps_pure _
          next => exact entryWaitMs_applies hcmd _ _
        · refine keeps_bind (hcmd .dateNow trivial rfl) fun now => ?_
          exact keeps_redis (hcmd (.redis (.zaddXx _ _ _))
            (fun hkey => hown (stageKeyFor_retry hkey)) rfl)
      | movedOn => exact keeps_pure _
      | removed => exact keeps_pure _

theorem drain_applies {queue : StageQueue} (hown : queue.stage = .retry → own = some .retry)
    (hq : K queue.key) (now : Nat) : (drain svc queue now).Keeps M J := by
  have hmembers : ∀ ids, (drainMembers svc queue now ids).Keeps M J := by
    intro ids
    induction ids with
    | nil => exact keeps_pure _
    | cons id ids ih =>
      exact keeps_bind (drainMember_applies hcmd hretry hstage hpoll hown hq now id) fun _ => ih
  exact keeps_bind (keeps_redis (hcmd (.redis (.getExpiredMessagesInQueue _ _)) trivial rfl))
    fun ids => hmembers ids

end Applying

theorem Handler.sources_stage (h : Handler) (stage : StageName) (p : PluginId) :
    h.Sources (stageKeyFor stage p) :=
  .inl ⟨stage, p, rfl⟩

section Handlers

variable {h : Handler} (hmay : ∀ c : Cmd, h.May svc c → c.isWhole = false →
    (Prog.command c : Engine (Reply c)).Keeps M J)

include hmay

theorem spawnAll_may {tasks : List Task} (ht : ∀ t ∈ tasks, h.May svc (.spawn t)) :
    (spawnAll tasks).Keeps M J := by
  induction tasks with
  | nil => exact keeps_pure _
  | cons t tasks ih =>
    refine keeps_bind (hmay _ (ht t List.mem_cons_self) rfl) fun _ => ?_
    exact ih fun t' ht' => ht t' (List.mem_cons_of_mem _ ht')

theorem deadMembers_may (ids : List MessageId) : (deadMembers ids).Keeps M J := by
  induction ids with
  | nil => exact keeps_pure _
  | cons id ids ih =>
    have hlive := keeps_redis (hmay (.redis (.existsMessage id)) (.inl trivial) rfl)
    exact keeps_bind (keeps_tryCatch hlive fun _ => keeps_pure _)
      fun live => keeps_bind ih fun _ => keeps_pure _

theorem loadIndexed_may (keys : List (Option MessageId)) : (loadIndexed keys).Keeps M J := by
  induction keys with
  | nil => exact keeps_pure _
  | cons key keys ih =>
    cases key with
    | none => exact ih
    | some id =>
      unfold loadIndexed
      have hload := keeps_redis (hmay (.redis (.hgetall id)) (.inl trivial) rfl)
      refine keeps_bind (keeps_tryCatch hload fun _ => keeps_pure _) fun raw => ?_
      refine keeps_bind ?_ fun loaded => keeps_bind ih fun _ => keeps_pure _
      unfold readIndexed
      split
      next => exact keeps_pure _
      next => exact readPicked_keeps _

theorem cancelOneMessage_may (m : DeviceMessage) : (cancelOneMessage svc m).Keeps M J := by
  unfold cancelOneMessage
  split
  next => exact keeps_pure _
  next =>
    split
    next => exact keeps_pure _
    next plugin _ =>
      refine keeps_bind (keeps_redis (hmay (.redis (.removeMessageFromQueue _ _)) (.inl trivial)
        rfl)) fun claimed => ?_
      cases claimed with
      | false => exact keeps_pure _
      | true =>
        refine keeps_bind (p := purge m plugin) ?_ fun _ => keeps_pure _
        exact keeps_redis (hmay (.redis (.messageFullCleanup m _)) (.inl trivial) rfl)

end Handlers

theorem enqueue_may {create : CreateDeviceMessage}
    (hmay : ∀ c : Cmd, Handler.May svc (.enqueue create) c → c.isWhole = false →
      (Prog.command c : Engine (Reply c)).Keeps M J) : (enqueue svc create).Keeps M J := by
  unfold enqueue
  split
  next => exact keeps_throw _
  next => exact keeps_throw _
  next => exact keeps_throw _
  next =>
    split
    next => exact keeps_throw _
    next =>
      split
      next => exact keeps_throw _
      next => exact keeps_redis (hmay (.redis (.enqueueDeviceMessage _ _)) (.inr rfl) rfl)

theorem drainRow_may {queue : StageQueue} {now : Nat}
    (hmay : ∀ c : Cmd, Handler.May svc (.task (.drain queue now)) c →
      c.isWhole = false → (Prog.command c : Engine (Reply c)).Keeps M J)
    (hretry : KeepsRetries svc (Handler.Sources (.task (.drain queue now))) M J)
    (hpoll : KeepsPolls svc M J) :
    (drainRow svc queue now).Keeps M J := by
  have hq : Handler.Sources (.task (.drain queue now)) queue.key := .inr ⟨queue, now, rfl, rfl⟩
  refine keeps_bind (hmay (.beginDrain queue.key) (.inr rfl) rfl) fun began => ?_
  cases began with
  | false => exact keeps_pure _
  | true =>
    refine keeps_bind (keeps_tryCatch ?_ fun _ => keeps_pure _)
      fun _ => hmay (.endDrain queue.key) (.inr rfl) rfl
    exact drain_applies (fun c hc => hmay c (.inl hc)) hretry (Handler.sources_stage _) hpoll
      (fun hs => congrArg some hs) hq now

theorem canAdmit_may {q : QueueKey}
    (hmay : ∀ c : Cmd, Handler.May svc (.task (.distributeQueue q)) c →
      c.isWhole = false → (Prog.command c : Engine (Reply c)).Keeps M J)
    (plugin : DeliveryPlugin) : (canAdmit plugin q).Keeps M J := by
  unfold canAdmit
  split
  next => exact keeps_redis (hmay (.redis (.lockQueueForTimeMs q _)) (.inr rfl) rfl)
  next =>
    split
    next => exact keeps_pure _
    next key _ =>
      refine keeps_bind (keeps_redis (hmay (.redis (.getConcurrencyRateLimitCount _)) (.inl trivial)
        rfl)) fun tracked => ?_
      split
      next =>
        refine keeps_bind ?_ fun _ => keeps_pure _
        unfold validateAndCleanConcurrencyRateLimit
        refine keeps_bind (keeps_redis (hmay (.redis (.smembersRateLimit _)) (.inl trivial) rfl))
          fun ids => ?_
        refine keeps_bind (deadMembers_may hmay ids) fun dead => ?_
        split
        next => exact keeps_pure _
        next =>
          exact keeps_bind (keeps_redis (hmay (.redis (.sremRateLimit _ _)) (.inr trivial) rfl))
            fun _ => keeps_pure _
      next => exact keeps_pure _

theorem distributeQueue_may {q : QueueKey}
    (hmay : ∀ c : Cmd, Handler.May svc (.task (.distributeQueue q)) c →
      c.isWhole = false → (Prog.command c : Engine (Reply c)).Keeps M J) :
    (distributeQueue svc q).Keeps M J := by
  have hcmd : ∀ c : Cmd, c.Applies svc _ _ → c.isWhole = false →
      (Prog.command c : Engine (Reply c)).Keeps M J := fun c hc => hmay c (.inl hc)
  unfold distributeQueue
  split
  next => exact keeps_pure _
  next plugin _ =>
    unfold distributeWith
    refine keeps_bind (canAdmit_may hmay plugin) fun admitted => ?_
    cases admitted with
    | false => exact keeps_pure _
    | true =>
      refine keeps_bind (p := pickIntoNs svc q plugin _) ?_ fun message => ?_
      · unfold pickIntoNs
        refine keeps_bind (hcmd .dateNow trivial rfl) fun now => ?_
        refine keeps_bind (entryWaitMs_applies hcmd _ _) fun wait => ?_
        exact keeps_bind (keeps_redis (hmay (.redis (.fetchNextMessageInQueueAndMove _)) (.inr rfl)
          rfl)) fun raw => readPicked_keeps raw
      · cases message with
        | none => exact keeps_pure _
        | some m =>
          refine keeps_bind (p := emitFirstSend svc m) ?_
            fun _ => hmay (.trackSend _ _) (.inr trivial) rfl
          unfold emitFirstSend
          split
          next => exact emit_applies hcmd _
          next => exact keeps_pure _

theorem trackedSend_may {pluginId : PluginId} {m : DeviceMessage} {token : Nat}
    (hmay : ∀ c : Cmd, Handler.May svc (.task (.send pluginId m token)) c →
      c.isWhole = false → (Prog.command c : Engine (Reply c)).Keeps M J)
    (hretry : KeepsRetries svc (Handler.Sources (.task (.send pluginId m token))) M J) :
    (trackedSend svc plugin m token).Keeps M J := by
  refine keeps_bind (keeps_tryCatch ?_ fun _ => keeps_pure _)
    fun _ => hmay (.settleSend m.id token) (.inr ⟨rfl, rfl⟩) rfl
  refine keeps_bind (hmay (.sendOne _ _) (.inr trivial) rfl) fun _ => ?_
  refine keeps_bind (hmay (.sendOneResult _ _) (.inr trivial) rfl) fun answer => ?_
  exact afterSendOne_applies (fun c hc => hmay c (.inl hc)) hretry (Handler.sources_stage _) m
    answer

/-- What the commands of a handler keep, its retries and its polls, is kept by its program. -/
theorem handlerProgram_applies {h : Handler}
    (hmay : ∀ c : Cmd, h.May svc c → c.isWhole = false →
      (Prog.command c : Engine (Reply c)).Keeps M J)
    (hretry : KeepsRetries svc h.Sources M J)
    (hpoll : KeepsPolls svc M J) :
    (handlerProgram svc h).Keeps M J := by
  cases h with
  | enqueue create => exact keeps_bind (enqueue_may hmay) fun _ => keeps_pure _
  | distribute =>
    refine keeps_bind (keeps_redis (hmay (.redis .fetchQueuesWithMessages) (.inl trivial) rfl))
      fun queues => spawnAll_may hmay fun t ht => ?_
    obtain ⟨q, -, rfl⟩ := List.mem_map.mp ht
    exact .inr trivial
  | tick =>
    refine keeps_bind (hmay .dateNow (.inl trivial) rfl) fun now =>
      spawnAll_may hmay fun t ht => ?_
    obtain ⟨queue, hqueue, rfl⟩ := List.mem_map.mp ht
    exact .inr hqueue
  | ingress pluginId event =>
    change (ingress svc pluginId event).Keeps M J
    unfold ingress
    split
    next => exact keeps_pure _
    next =>
      split
      next =>
        exact keeps_bind (processEvent_applies (fun c hc => hmay c (.inl hc)) hretry
          (Handler.sources_stage _) _) fun _ => keeps_pure _
      next => exact keeps_pure _
  | cancel c =>
    refine keeps_bind (p := getAllMessagesForCorrelationId c) ?_ fun messages =>
      spawnAll_may hmay fun t ht => ?_
    · exact keeps_bind (keeps_redis (hmay (.redis (.mgetCorrelationIndexes _)) (.inl trivial) rfl))
        fun keys => loadIndexed_may hmay keys
    · obtain ⟨m, -, rfl⟩ := List.mem_map.mp ht
      exact .inr trivial
  | task t =>
    cases t with
    | drain queue now => exact drainRow_may hmay hretry hpoll
    | distributeQueue q => exact distributeQueue_may hmay
    | send pluginId m token =>
      change (send svc pluginId m token).Keeps M J
      unfold send
      split
      next => exact keeps_pure _
      next => exact trackedSend_may hmay hretry
    | cancelMessage m => exact keeps_bind (cancelOneMessage_may hmay m) fun _ => keeps_pure _

theorem enterRetry_issues {A : Cmd → Prop} {K : QueueKey → Prop}
    (hA : ∀ c, c.Applies svc K own → A c) : KeepsRetries svc K (Monitor.only A) fun _ => True := by
  intro q plugin id n history hq hn
  unfold enterRetry
  refine keeps_bind (issues_redis (hA _ trivial)) fun inQueue => ?_
  cases inQueue with
  | none => exact keeps_pure _
  | some _ =>
    refine keeps_bind (issues_command (hA _ trivial)) fun now => ?_
    refine keeps_bind (keeps_bind (issues_command (hA _ trivial)) fun _ => keeps_pure _)
      fun wait => ?_
    refine keeps_bind (issues_redis (hA _ trivial)) fun fields => ?_
    refine keeps_bind (issues_redis (hA _ ⟨hq, fun k hk => ?_⟩)) fun _ => keeps_pure _
    obtain ⟨j, hj, rfl⟩ := Option.map_eq_some_iff.mp hk
    have hlt := hn j hj
    omega

theorem pollTask_issues {A : Cmd → Prop} {K : QueueKey → Prop}
    (hA : ∀ c, c.Applies svc K own → A c) (hstage : ∀ stage p, K (stageKeyFor stage p)) :
    KeepsPolls svc (Monitor.only A) fun _ => True := by
  intro c _
  refine keeps_bind (issues_command (hA (.fetchStatus _ _) trivial)) fun answer => ?_
  refine keeps_bind ?_ fun event => ?_
  · cases answer with
    | ok a => exact keeps_pure _
    | error e => exact keeps_throw _
  · cases event with
    | none => exact keeps_pure _
    | some event =>
      exact processEvent_applies (fun b hb _ => issues_command (hA b hb)) (enterRetry_issues hA)
        hstage event

theorem drain_issues {queue : StageQueue} (hstage : ∀ stage p, K (stageKeyFor stage p))
    (hq : K queue.key) (now : Nat) :
    (drain svc queue now).Issues (Cmd.Applies svc K (some queue.stage)) :=
  drain_applies (fun _ hc _ => issues_command hc) (enterRetry_issues fun _ hc => hc) hstage
    (pollTask_issues (fun _ hc => hc) hstage) (fun hs => congrArg some hs) hq now

/-- Every handler issues only what it may. -/
theorem handlerProgram_may (h : Handler) : (handlerProgram svc h).Issues (h.May svc) :=
  handlerProgram_applies (fun _ hc _ => issues_command hc) (enterRetry_issues fun _ hc => .inl hc)
    (pollTask_issues (fun _ hc => .inl hc) h.sources_stage)

variable {h : Handler} {weather : Weather} {x y : Process}
  {ok : Process → Choice Handler Oracle Disturbance → Prop}

/-- In every run a thread waits on a command its handler may issue. -/
theorem reached_may (hx : Reached svc weather ok x) {i : Nat} {c : Cmd}
    (hw : x.waiting i = some (h, c)) : h.May svc c :=
  System.Reachable.may (S := engine svc weather) handlerProgram_may rfl hx hw

/-- A drain of a stage queue. -/
def Task.Staged (svc : Service) (t : Task) : Prop :=
  match t with
  | .drain queue _ => queue ∈ enumerateStageQueues (pullPluginIds svc)
  | _ => True

def Handler.Staged (svc : Service) (h : Handler) : Prop :=
  match h with
  | .task t => t.Staged svc
  | _ => True

theorem Handler.May.spawn_staged {t : Task} (hm : h.May svc (.spawn t)) : t.Staged svc := by
  rcases hm with hm | hm
  · exact hm.elim
  · cases t with
    | drain queue now =>
      cases h with
      | tick => exact hm
      | task t => cases t <;> exact hm.elim
      | _ => exact hm.elim
    | _ => trivial

/-- Every drain that was handed off or is under way is one of a stage queue. -/
structure Rows (svc : Service) (x : Process) : Prop where
  tasks : ∀ t ∈ x.world.tasks, t.Staged svc
  threads : ∀ t ∈ x.threads, t.1.Staged svc

theorem rows_next (hr : Rows svc x) (hmay : ∀ i h c, x.waiting i = some (h, c) → h.May svc c)
    {a : Choice Handler Oracle Disturbance} (hy : (engine svc weather).next a x = some y) :
    Rows svc y := by
  rcases System.next_cases hy with ⟨h, w, rfl, hw, rfl⟩ | ⟨i, o, h, c, k, r, w, rfl, ht, hr', rfl⟩ |
    ⟨d, w, rfl, hw, rfl⟩ | ⟨w, rfl, hw, rfl⟩
  · have hstart : (∀ t ∈ w.tasks, t ∈ x.world.tasks) ∧ h.Staged svc := by
      simp only [engine, startHandler] at hw
      split at hw
      next t =>
        split at hw <;> cases hw
        next hmem => exact ⟨fun t ht => List.mem_of_mem_erase ht, hr.tasks t hmem⟩
      next hne =>
        cases hw
        refine ⟨fun t ht => ht, ?_⟩
        cases h with
        | task t => exact absurd rfl (hne t)
        | _ => trivial
    refine ⟨fun t ht => hr.tasks t (hstart.1 t ht), fun t ht => ?_⟩
    rcases List.mem_append.mp ht with ht | ht
    · exact hr.threads t ht
    · rw [List.mem_singleton.mp ht]
      exact hstart.2
  · have hwait : x.waiting i = some (h, c) := by simp [Config.waiting, ht, Prog.pending]
    simp only [engine] at hr'
    split at hr'
    next =>
      refine ⟨fun t ht' => ?_, fun t ht' => ?_⟩
      · rcases tasks_respond hr' t ht' with ht' | rfl | ⟨p, m, -, rfl⟩
        · exact hr.tasks t ht'
        · exact (hmay i h _ hwait).spawn_staged
        · trivial
      · rcases List.mem_or_eq_of_mem_set ht' with ht' | rfl
        · exact hr.threads t ht'
        · have hold := hr.threads _ (List.mem_of_getElem? ht)
          exact hold
    next => cases hr'
  · simp only [engine] at hw
    split at hw <;> cases hw
    exact ⟨hr.tasks, hr.threads⟩
  · simp only [engine] at hw
    split at hw <;> cases hw
    exact ⟨(fun t ht => absurd ht List.not_mem_nil), fun t ht => absurd ht List.not_mem_nil⟩

theorem reached_rows (hx : Reached svc weather ok x) : Rows svc x := by
  have hall : Reached svc weather ok x ∧ Rows svc x := by
    refine hx.invariant (I := fun x => Reached svc weather ok x ∧ Rows svc x)
      ⟨.init, ⟨(fun t ht => absurd ht List.not_mem_nil),
        fun t ht => absurd ht List.not_mem_nil⟩⟩ ?_
    rintro x y a ⟨hx, hr⟩ ha hy
    exact ⟨.step a hx ha hy, rows_next hr (fun i h c hw => reached_may hx hw) hy⟩
  exact hall.2

/-- In every run a retry leaves a stage queue, within the retries there are. -/
theorem reached_retry_within (hx : Reached svc weather ok x) {i : Nat} {a : EnterRetryMulti}
    (hw : x.waiting i = some (h, .redis (.enterRetry a))) :
    (∃ stage p, a.fromKey = stageKeyFor stage p) ∧
      ∀ n, a.retryCount = some n → n ≤ svc.delivery.maxRetries := by
  have hm : a.Within svc h.Sources := by
    rcases reached_may hx hw with hm | hm
    · exact hm
    · cases h with
      | task t => cases t <;> exact hm.elim
      | _ => exact hm.elim
  refine ⟨?_, hm.2⟩
  rcases hm.1 with hstage | ⟨queue, now, rfl, hq⟩
  · exact hstage
  · obtain ⟨p, hp, -⟩ := Config.waiting_mem hw
    obtain ⟨id, hid⟩ := mem_enumerateStageQueues ((reached_rows hx).threads _ hp)
    exact ⟨queue.stage, id, hq.trans hid⟩

end DeviceMessaging
