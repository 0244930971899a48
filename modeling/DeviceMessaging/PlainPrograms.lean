import DeviceMessaging.Handlers

namespace DeviceMessaging

open Effect Prog

/-- A command that no program has a duty about: all but locks, picks, moves into a
ready queue, sweeps of a rate limit, and the steps of a send. -/
def Cmd.Plain (c : Cmd) : Prop :=
  match c with
  | .redis (.moveMessageBetweenQueues a) => ∀ node, a.destinationQueue ≠ .ready node
  | .redis (.fetchNextMessageInQueueAndMove _) => False
  | .redis (.lockQueueForTimeMs _ _) => False
  | .redis (.sremRateLimit _ _) => False
  | .trackSend .. => False
  | .settleSend .. => False
  | .sendOne .. => False
  | .sendOneResult .. => False
  | _ => True

/-- A command that tells nothing of a message and puts none anywhere. -/
def Cmd.Quiet (c : Cmd) : Prop :=
  match c with
  | .redis (.enqueueDeviceMessage _ _) => False
  | .redis (.moveMessageBetweenQueues _) => False
  | .redis (.fetchNextMessageInQueueAndMove _) => False
  | .redis (.enterRetry _) => False
  | .redis (.webhookEnqueue _ _) => False
  | .redis (.lockQueueForTimeMs _ _) => False
  | .redis (.sremRateLimit _ _) => False
  | .trackSend .. => False
  | .settleSend .. => False
  | .sendOne .. => False
  | .sendOneResult .. => False
  | .fetchStatus .. => False
  | _ => True

theorem Cmd.Quiet.plain {c : Cmd} (hc : c.Quiet) : c.Plain := by
  unfold Cmd.Plain
  split <;> first | exact hc.elim | trivial

variable {svc : Service} {S : Type} {M : Monitor Cmd Reply S} {J : S → Prop}
  {plugin : DeliveryPlugin}

theorem stageKeyFor_ne_ready (stage : StageName) (pluginId : PluginId) (node : AdmissionNode) :
    stageKeyFor stage pluginId ≠ .ready node := by
  cases stage <;> simp [stageKeyFor, stages]

theorem keeps_redis {c : RedisCmd}
    (hc : (Prog.command (Cmd.redis c) : Engine (Except String c.Value)).Keeps M J) :
    (redis c).Keeps M J := by
  refine keeps_bind hc fun r => ?_
  cases r with
  | ok v => exact keeps_pure v
  | error e => exact keeps_throw e

theorem readPicked_keeps (raw : Option (MessageId × MessageHash)) :
    (readPicked raw).Keeps M J := by
  unfold readPicked
  split
  next => exact keeps_pure _
  next =>
    split
    next => exact keeps_pure _
    next => exact keeps_throw _

/-- What a distribute pass does once a queue is admitted. -/
def pickAndTrack (svc : Service) (plugin : DeliveryPlugin) (queueKey : QueueKey) : Engine Unit := do
  let messageToSend ← pickIntoNs svc queueKey plugin (concurrencyRateLimit plugin queueKey)
  match messageToSend with
  | none => return ()
  | some messageToSend =>
    emitFirstSend svc messageToSend
    Prog.command (Cmd.trackSend plugin.id messageToSend)

section Quiet

variable (hquiet : ∀ c : Cmd, c.Quiet → (Prog.command c : Engine (Reply c)).Keeps M J)

include hquiet

theorem getMessageById_keeps (id : MessageId) : (getMessageById id).Keeps M J :=
  keeps_bind (keeps_redis (hquiet (.redis (.hgetall id)) trivial)) fun _ => readPicked_keeps _

theorem entryWaitMs_keeps (name : StageName) (c : StageEntryContext) :
    ((stages name).entryWaitMs c).Keeps M J := by
  cases name with
  | retry => exact keeps_bind (hquiet .mathRandom trivial) fun _ => keeps_pure _
  | _ => exact keeps_pure _

theorem purge_keeps (message : DeviceMessage) : (purge message plugin).Keeps M J :=
  keeps_redis (hquiet (.redis (.messageFullCleanup message _)) trivial)

theorem followUp_keeps (queue : StageQueue) (id : MessageId) (message : DeviceMessage) (age : Int)
    (outcome : StageOutcome) :
    (followUp svc queue id message age plugin outcome).Keeps M J := by
  cases outcome with
  | orphaned =>
    exact keeps_bind (keeps_redis (hquiet (.redis (.removeMessageFromQueue _ _)) trivial))
      fun _ => keeps_pure _
  | rescheduled =>
    refine keeps_bind (p := rescheduleWaitMsFor queue.stage _) ?_ fun wait => ?_
    · unfold rescheduleWaitMsFor
      split
      next => exact keeps_pure _
      next => exact entryWaitMs_keeps hquiet _ _
    · refine keeps_bind (hquiet .dateNow trivial) fun now => ?_
      exact keeps_redis (hquiet (.redis (.zaddXx _ _ _)) trivial)
  | movedOn => exact keeps_pure _
  | removed => exact keeps_pure _

theorem deadMembers_keeps (ids : List MessageId) : (deadMembers ids).Keeps M J := by
  induction ids with
  | nil => exact keeps_pure _
  | cons id ids ih =>
    refine keeps_bind (keeps_tryCatch (keeps_redis (hquiet (.redis (.existsMessage id)) trivial))
      fun _ => keeps_pure _) fun live => ?_
    exact keeps_bind ih fun _ => keeps_pure _

theorem sweep_keeps (hsrem : ∀ key ids, (Prog.command (Cmd.redis (.sremRateLimit key ids)) :
    Engine (Except String Unit)).Keeps M J) (key : AdmissionNode) :
    (validateAndCleanConcurrencyRateLimit key).Keeps M J := by
  unfold validateAndCleanConcurrencyRateLimit
  refine keeps_bind (keeps_redis (hquiet (.redis (.smembersRateLimit key)) trivial)) fun ids => ?_
  refine keeps_bind (deadMembers_keeps hquiet ids) fun dead => ?_
  split
  next => exact keeps_pure _
  next => exact keeps_bind (keeps_redis (hsrem _ _)) fun _ => keeps_pure _

theorem canAdmit_keeps (hsweep : ∀ key, (validateAndCleanConcurrencyRateLimit key).Keeps M J)
    {queueKey : QueueKey} (hlock : ∀ ms, plugin.admission = .spacing ms →
      (Prog.command (Cmd.redis (.lockQueueForTimeMs queueKey ms)) :
        Engine (Except String Bool)).Keeps M J) : (canAdmit plugin queueKey).Keeps M J := by
  unfold canAdmit
  split
  next ms hms => exact keeps_redis (hlock ms hms)
  next =>
    split
    next => exact keeps_pure _
    next key _ =>
      refine keeps_bind (keeps_redis (hquiet (.redis (.getConcurrencyRateLimitCount _)) trivial))
        fun tracked => ?_
      split
      next => exact keeps_bind (hsweep key) fun _ => keeps_pure _
      next => exact keeps_pure _

theorem spawnAll_keeps (tasks : List Task) : (spawnAll tasks).Keeps M J := by
  induction tasks with
  | nil => exact keeps_pure _
  | cons t tasks ih => exact keeps_bind (hquiet (.spawn t) trivial) fun _ => ih

theorem loadIndexed_keeps (keys : List (Option MessageId)) : (loadIndexed keys).Keeps M J := by
  induction keys with
  | nil => exact keeps_pure _
  | cons key keys ih =>
    cases key with
    | none => exact ih
    | some id =>
      unfold loadIndexed
      refine keeps_bind (keeps_tryCatch (keeps_redis (hquiet (.redis (.hgetall id)) trivial))
        fun _ => keeps_pure _) fun raw => ?_
      refine keeps_bind ?_ fun loaded => keeps_bind ih fun _ => keeps_pure _
      unfold readIndexed
      split
      next => exact keeps_pure _
      next => exact readPicked_keeps _

theorem cancelOneMessage_keeps (message : DeviceMessage) :
    (cancelOneMessage svc message).Keeps M J := by
  unfold cancelOneMessage
  split
  next => exact keeps_pure _
  next =>
    split
    next => exact keeps_pure _
    next plugin _ =>
      refine keeps_bind (keeps_redis (hquiet (.redis (.removeMessageFromQueue _ _)) trivial))
        fun claimed => ?_
      cases claimed with
      | false => exact keeps_pure _
      | true => exact keeps_bind (purge_keeps hquiet message) fun _ => keeps_pure _

theorem requeue_keeps {fromKey toKey : QueueKey}
    (hmove : ∀ a : MoveArgs, a.sourceQueue = fromKey → a.destinationQueue = toKey →
      a.deliveryStatus = .QUEUED →
      (Prog.command (Cmd.redis (.moveMessageBetweenQueues a)) :
        Engine (Except String Bool)).Keeps M J) (id : MessageId) (priority : ParsedInt) :
    (requeue id fromKey toKey priority).Keeps M J := by
  refine keeps_bind (keeps_redis (hmove _ rfl rfl rfl)) fun moved => ?_
  cases moved with
  | false => exact keeps_pure _
  | true =>
    exact keeps_bind (keeps_redis (hquiet (.redis (.saddDistribute _)) trivial))
      fun _ => keeps_pure _

theorem advance_keeps {fromStage : StageName}
    (hmove : ∀ (a : MoveArgs) next, nextStage plugin.deliveryPattern fromStage = some next →
      a.destinationQueue = stageKeyFor next plugin.id →
      a.deliveryStatus = (stages next).entryStatus →
      (Prog.command (Cmd.redis (.moveMessageBetweenQueues a)) :
        Engine (Except String Bool)).Keeps M J) (messageId : MessageId) (x : Option String)
    (n : ParsedInt) : (advance svc messageId plugin fromStage x n).Keeps M J := by
  unfold advance
  split
  next => exact keeps_throw _
  next next hnext =>
    refine keeps_bind (hquiet .dateNow trivial) fun now => ?_
    refine keeps_bind (entryWaitMs_keeps hquiet _ _) fun wait => ?_
    exact keeps_redis (hmove _ next hnext rfl rfl)

end Quiet

section Plain

variable (hplain : ∀ c : Cmd, c.Plain → (Prog.command c : Engine (Reply c)).Keeps M J)

include hplain

theorem quiet_of_plain (c : Cmd) (hc : c.Quiet) :
    (Prog.command c : Engine (Reply c)).Keeps M J :=
  hplain c hc.plain

theorem advance_keeps_plain (messageId : MessageId) (fromStage : StageName) (x : Option String)
    (n : ParsedInt) : (advance svc messageId plugin fromStage x n).Keeps M J :=
  advance_keeps (quiet_of_plain hplain) (fun a _ _ hdest _ =>
    hplain (.redis (.moveMessageBetweenQueues a)) fun node => hdest ▸ stageKeyFor_ne_ready _ _ node)
    messageId x n

theorem emitDeliveryEvent_keeps (message : PartialMessage) :
    (emitDeliveryEvent svc message).Keeps M J := by
  unfold emitDeliveryEvent
  split
  next =>
    unfold storeAndEmit
    refine keeps_bind (hplain .dateNow trivial) fun occurredAt => ?_
    refine keeps_bind (hplain .ulid trivial) fun eventId => ?_
    cases buildWebhookEvent message occurredAt eventId with
    | error e => exact keeps_pure ()
    | ok event =>
      refine keeps_bind (hplain .dateNow trivial) fun now => ?_
      exact keeps_redis (hplain (.redis (.webhookEnqueue ⟨event, 0⟩ now)) trivial)
  next => exact keeps_pure ()

theorem enterRetry_keeps (messageId : MessageId) (fromKey : QueueKey) (n : ParsedInt)
    (history : List FailureReason) :
    (enterRetry svc messageId fromKey n history plugin).Keeps M J := by
  unfold enterRetry
  refine keeps_bind (keeps_redis (hplain (.redis (.zscore _ _)) trivial)) fun inQueue => ?_
  cases inQueue with
  | none => exact keeps_pure _
  | some _ =>
    refine keeps_bind (hplain .dateNow trivial) fun now => ?_
    refine keeps_bind (entryWaitMs_keeps (quiet_of_plain hplain) _ _) fun wait => ?_
    refine keeps_bind (keeps_redis (hplain (.redis (.hmget _)) trivial)) fun fields => ?_
    exact keeps_bind (keeps_redis (hplain (.redis (.enterRetry _)) trivial)) fun _ => keeps_pure _

theorem retryOrFail_keeps (messageId : MessageId) (queueKey : QueueKey) (c : FailureContext) :
    (retryOrFail svc messageId queueKey c plugin).Keeps M J := by
  unfold retryOrFail
  refine keeps_bind (getMessageById_keeps (quiet_of_plain hplain) messageId) fun message => ?_
  cases message with
  | none => exact keeps_pure _
  | some message =>
    refine keeps_bind (hplain .dateNow trivial) fun timestamp => ?_
    dsimp only
    split
    next =>
      refine keeps_bind (emitDeliveryEvent_keeps hplain _) fun _ => ?_
      exact keeps_bind (purge_keeps (quiet_of_plain hplain) message) fun _ => keeps_pure _
    next => exact keeps_bind (enterRetry_keeps hplain _ _ _ _) fun _ => keeps_pure _

theorem processFailure_keeps (messageId : MessageId) (e : ParsedIncomingEvent) :
    (processFailure svc messageId e plugin).Keeps M J := by
  unfold processFailure
  refine keeps_bind (getMessageById_keeps (quiet_of_plain hplain) messageId) fun message => ?_
  cases message with
  | none => exact keeps_pure _
  | some message =>
    dsimp only
    split
    next => exact keeps_throw _
    next =>
      split
      next => exact keeps_pure _
      next => exact retryOrFail_keeps hplain _ _ _

theorem processSuccess_keeps (messageId : MessageId) (e : ParsedIncomingEvent) :
    (processSuccess svc messageId e plugin).Keeps M J := by
  unfold processSuccess
  refine keeps_bind (getMessageById_keeps (quiet_of_plain hplain) messageId) fun message => ?_
  cases message with
  | none => exact keeps_pure _
  | some message =>
    refine keeps_bind (hplain .dateNow trivial) fun timestamp => ?_
    refine keeps_bind (emitDeliveryEvent_keeps hplain _) fun _ => ?_
    exact keeps_bind (purge_keeps (quiet_of_plain hplain) message) fun _ => keeps_pure _

theorem processEvent_keeps (e : ParsedIncomingEvent) : (processEvent svc e plugin).Keeps M J := by
  unfold processEvent
  split
  next => exact keeps_bind (emitDeliveryEvent_keeps hplain _) fun _ => keeps_pure _
  next =>
    split
    next => exact keeps_pure _
    next x _ =>
      unfold getMessageIdFromDeliveryQueueId
      refine keeps_bind (keeps_bind (keeps_redis (hplain (.redis (.getExternalIndex x)) trivial))
        fun _ => keeps_pure _) fun id => ?_
      cases id with
      | none => exact keeps_pure _
      | some id =>
        dsimp only
        unfold processIndexed
        split
        next => exact keeps_bind (advance_keeps_plain hplain _ _ _ _) fun _ => keeps_pure _
        next =>
          split
          next => exact processFailure_keeps hplain _ _
          next =>
            split
            next => exact keeps_pure _
            next => exact processSuccess_keeps hplain _ _

theorem relayNodeAction_keeps (c : StageActionContext) : (relayNodeAction svc c).Keeps M J := by
  unfold relayNodeAction
  split
  next =>
    have hremote : (remoteStillQueued c).Keeps M J := by
      refine keeps_bind (hplain (.getRemoteStatus _ _) trivial) fun answer => ?_
      cases answer <;> exact keeps_pure _
    refine keeps_bind hremote fun queued => ?_
    split
    next => exact keeps_pure _
    next => exact retryOrFail_keeps hplain _ _ _
  next => exact retryOrFail_keeps hplain _ _ _

theorem awaitingTaskAction_keeps (c : StageActionContext) :
    (awaitingTaskAction svc c).Keeps M J := by
  unfold awaitingTaskAction
  split
  next =>
    refine keeps_bind (keeps_bind (hplain .dateNow trivial) fun timestamp => ?_)
      fun _ => keeps_pure _
    exact keeps_bind (emitDeliveryEvent_keeps hplain _) fun _ => purge_keeps (quiet_of_plain hplain) _
  next =>
    split
    next => exact keeps_pure _
    next =>
      split
      next => exact keeps_pure _
      next =>
        refine keeps_bind (hplain (.fetchStatus _ _) trivial) fun answer => ?_
        refine keeps_bind ?_ fun event => ?_
        · cases answer with
          | ok a => exact keeps_pure _
          | error e => exact keeps_throw _
        · cases event with
          | none => exact keeps_pure _
          | some event => exact processEvent_keeps hplain _

/-- Every action but the one that requeues. -/
theorem stageActions_keeps {name : StageName} (hname : name ≠ .retry) (c : StageActionContext) :
    (stageActions svc name c).Keeps M J := by
  cases name with
  | ns =>
    refine keeps_bind (hplain (.hasInFlightSend _) trivial) fun held => ?_
    cases held with
    | true => exact keeps_pure _
    | false => exact retryOrFail_keeps hplain _ _ _
  | relayNode => exact relayNodeAction_keeps hplain c
  | device => exact retryOrFail_keeps hplain _ _ _
  | awaitingTask => exact awaitingTaskAction_keeps hplain c
  | retry => exact absurd rfl hname

theorem drainMember_keeps (hrequeue : ∀ id key priority, (requeue id .retry key priority).Keeps M J)
    (queue : StageQueue) (now : Nat) (id : MessageId) :
    (drainMember svc queue now id).Keeps M J := by
  have hscrub : (do
      let _ ← redis (.removeMessageFromQueue queue.key id)
      return () : Engine Unit).Keeps M J :=
    keeps_bind (keeps_redis (hplain (.redis (.removeMessageFromQueue _ _)) trivial))
      fun _ => keeps_pure _
  unfold drainMember
  refine keeps_bind (getMessageById_keeps (quiet_of_plain hplain) id) fun message => ?_
  cases message with
  | none => exact hscrub
  | some message =>
    dsimp only
    split
    next => exact hscrub
    next plugin _ =>
      refine keeps_bind (p := decodeTime svc id) ?_ fun time => ?_
      · unfold decodeTime
        split
        next => exact keeps_pure _
        next => exact keeps_throw _
      refine keeps_bind (keeps_tryCatch ?_ fun _ => keeps_pure _)
        fun outcome => followUp_keeps (quiet_of_plain hplain) _ _ _ _ _
      by_cases hname : queue.stage = .retry
      · rw [hname]
        exact keeps_bind (hrequeue _ _ _) fun _ => keeps_pure _
      · exact stageActions_keeps hplain hname _

theorem drainRow_keeps (hrequeue : ∀ id key priority, (requeue id .retry key priority).Keeps M J)
    (queue : StageQueue) (now : Nat) : (drainRow svc queue now).Keeps M J := by
  have hmembers : ∀ ids, (drainMembers svc queue now ids).Keeps M J := by
    intro ids
    induction ids with
    | nil => exact keeps_pure _
    | cons id ids ih => exact keeps_bind (drainMember_keeps hplain hrequeue _ _ _) fun _ => ih
  refine keeps_bind (hplain (.beginDrain _) trivial) fun began => ?_
  cases began with
  | false => exact keeps_pure _
  | true =>
    refine keeps_bind (keeps_tryCatch ?_ fun _ => keeps_pure _)
      fun _ => hplain (.endDrain _) trivial
    exact keeps_bind (keeps_redis (hplain (.redis (.getExpiredMessagesInQueue _ _)) trivial))
      fun ids => hmembers ids

theorem afterSendOne_keeps (message : DeviceMessage) (answer : Except VendorError String) :
    (afterSendOne svc plugin message answer).Keeps M J := by
  unfold afterSendOne
  split
  next => exact keeps_bind (retryOrFail_keeps hplain _ _ _) fun _ => keeps_pure _
  next =>
    split
    next => exact keeps_bind (retryOrFail_keeps hplain _ _ _) fun _ => keeps_pure _
    next => exact keeps_bind (advance_keeps_plain hplain _ _ _ _) fun _ => keeps_pure _

theorem emitFirstSend_keeps (message : DeviceMessage) : (emitFirstSend svc message).Keeps M J := by
  unfold emitFirstSend
  split
  next => exact emitDeliveryEvent_keeps hplain _
  next => exact keeps_pure _

theorem distributeQueue_keeps (hsweep : ∀ key, (validateAndCleanConcurrencyRateLimit key).Keeps M J)
    {queueKey : QueueKey} (hlock : ∀ ms, (Prog.command (Cmd.redis (.lockQueueForTimeMs queueKey ms)) :
      Engine (Except String Bool)).Keeps M J)
    (hpick : ∀ plugin, (pickAndTrack svc plugin queueKey).Keeps M J) :
    (distributeQueue svc queueKey).Keeps M J := by
  unfold distributeQueue
  split
  next => exact keeps_pure _
  next plugin _ =>
    unfold distributeWith
    refine keeps_bind (canAdmit_keeps (quiet_of_plain hplain) hsweep fun ms _ => hlock ms)
      fun admitted => ?_
    cases admitted with
    | false => exact keeps_pure _
    | true => exact hpick plugin

theorem enqueue_keeps (create : CreateDeviceMessage) : (enqueue svc create).Keeps M J := by
  unfold enqueue
  split
  next => exact keeps_throw _
  next => exact keeps_throw _
  next => exact keeps_throw _
  next =>
    split
    next => exact keeps_throw _
    next =>
      split
      next => exact keeps_throw _
      next => exact keeps_redis (hplain (.redis (.enqueueDeviceMessage _ _)) trivial)

theorem pickAndTrack_keeps {queueKey : QueueKey} (hfetch : ∀ a, a.sourceQueue = queueKey →
      (Prog.command (Cmd.redis (.fetchNextMessageInQueueAndMove a)) :
        Engine (Except String _)).Keeps M J)
    (htrack : ∀ p m, (Prog.command (Cmd.trackSend p m) : Engine Unit).Keeps M J) :
    (pickAndTrack svc plugin queueKey).Keeps M J := by
  unfold pickAndTrack pickIntoNs
  refine keeps_bind (keeps_bind (hplain .dateNow trivial) fun now => ?_) fun message => ?_
  · refine keeps_bind (entryWaitMs_keeps (quiet_of_plain hplain) _ _) fun wait => ?_
    exact keeps_bind (keeps_redis (hfetch _ rfl)) fun raw => readPicked_keeps raw
  · cases message with
    | none => exact keeps_pure _
    | some message =>
      exact keeps_bind (emitFirstSend_keeps hplain message) fun _ => htrack _ _

theorem trackedSend_keeps
    (hsend : ∀ p m, (Prog.command (Cmd.sendOne p m) : Engine Unit).Keeps M J)
    (hresult : ∀ p m, (Prog.command (Cmd.sendOneResult p m) : Engine (Except _ String)).Keeps M J)
    (hsettle : ∀ id n, (Prog.command (Cmd.settleSend id n) : Engine Unit).Keeps M J)
    (message : DeviceMessage) (token : Nat) : (trackedSend svc plugin message token).Keeps M J := by
  refine keeps_bind (keeps_tryCatch ?_ fun _ => keeps_pure _) fun _ => hsettle _ _
  refine keeps_bind (hsend _ _) fun _ => ?_
  exact keeps_bind (hresult _ _) fun answer => afterSendOne_keeps hplain _ _

/-- What plain commands and the two programs with other commands keep is kept by every
handler but a cancel's claim and a queue's pass. -/
theorem undistributed_keeps
    (hrequeue : ∀ id key priority, (requeue id .retry key priority).Keeps M J)
    (hsend : ∀ plugin message token, (trackedSend svc plugin message token).Keeps M J)
    {h : Handler} (hh : ∀ m, h ≠ .task (.cancelMessage m))
    (hq : ∀ q, h ≠ .task (.distributeQueue q)) : (handlerProgram svc h).Keeps M J := by
  cases h with
  | enqueue create => exact keeps_bind (enqueue_keeps hplain create) fun _ => keeps_pure _
  | distribute =>
    exact keeps_bind (keeps_redis (hplain (.redis .fetchQueuesWithMessages) trivial))
      fun queues => spawnAll_keeps (quiet_of_plain hplain) _
  | tick => exact keeps_bind (hplain .dateNow trivial) fun now => spawnAll_keeps (quiet_of_plain hplain) _
  | ingress pluginId event =>
    change (ingress svc pluginId event).Keeps M J
    unfold ingress
    split
    next => exact keeps_pure _
    next =>
      split
      next => exact keeps_bind (processEvent_keeps hplain _) fun _ => keeps_pure _
      next => exact keeps_pure _
  | cancel c =>
    refine keeps_bind ?_ fun messages => spawnAll_keeps (quiet_of_plain hplain) _
    exact keeps_bind (keeps_redis (hplain (.redis (.mgetCorrelationIndexes _)) trivial))
      fun keys => loadIndexed_keeps (quiet_of_plain hplain) _
  | task t =>
    cases t with
    | drain queue now => exact drainRow_keeps hplain hrequeue _ _
    | distributeQueue q => exact absurd rfl (hq q)
    | send pluginId m token =>
      change (send svc pluginId m token).Keeps M J
      unfold send
      split
      next => exact keeps_pure _
      next => exact hsend _ _ _
    | cancelMessage m => exact absurd rfl (hh m)

/-- The same of a queue's pass, for what its commands keep as well. -/
theorem handlerProgram_keeps
    (hrequeue : ∀ id key priority, (requeue id .retry key priority).Keeps M J)
    (hsweep : ∀ key, (validateAndCleanConcurrencyRateLimit key).Keeps M J)
    (hlock : ∀ q ms, (Prog.command (Cmd.redis (.lockQueueForTimeMs q ms)) :
      Engine (Except String Bool)).Keeps M J)
    (hpick : ∀ plugin queueKey, (pickAndTrack svc plugin queueKey).Keeps M J)
    (hsend : ∀ plugin message token, (trackedSend svc plugin message token).Keeps M J)
    {h : Handler} (hh : ∀ m, h ≠ .task (.cancelMessage m)) : (handlerProgram svc h).Keeps M J := by
  by_cases hq : ∃ q, h = .task (.distributeQueue q)
  · obtain ⟨q, rfl⟩ := hq
    exact distributeQueue_keeps hplain hsweep (hlock q) fun plugin => hpick plugin q
  · exact undistributed_keeps hplain hrequeue hsend hh fun q he => hq ⟨q, he⟩

end Plain

end DeviceMessaging
