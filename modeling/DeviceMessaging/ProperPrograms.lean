import DeviceMessaging.Requests

namespace DeviceMessaging

open Effect

variable {svc : Service} {g : Requests} {plugin : DeliveryPlugin}

theorem emit_proper (pm : PartialMessage) : IsProper svc g (emitDeliveryEvent svc pm) := by
  unfold emitDeliveryEvent
  split
  next =>
    unfold storeAndEmit
    refine sourced_then (proper_command trivial) fun at' g₁ _ => ?_
    refine sourced_then (proper_command trivial) fun ev g₂ _ => ?_
    cases buildWebhookEvent pm at' ev with
    | error e => exact proper_pure ()
    | ok event => exact sourced_then (proper_command trivial) fun _ _ _ => proper_redis trivial
  next => exact proper_pure ()

theorem purge_proper {m : DeviceMessage} (hm : Requested g m) : IsProper svc g (purge m plugin) :=
  proper_redis hm

theorem readPicked_sourced {id : MessageId} {raw : Option MessageHash}
    (hk : ∀ h, raw = some h → KnownHash g id h) :
    Sourced svc g (readPicked (raw.map fun h => (id, h))) fun message g₁ =>
      ∀ m, message = some m → Requested g₁ m ∧ m.id = id := by
  cases hh : raw with
  | none => exact sourced_pure fun _ _ _ he => nomatch he
  | some h =>
    simp only [Option.map_some, readPicked]
    cases hm : deserializeMessage id h with
    | error e => exact sourced_throw e
    | ok m =>
      refine sourced_pure fun g₁ hg m' he => ?_
      cases he
      obtain ⟨hr, hid⟩ := (hk h hh).loads hm
      exact ⟨hr.mono hg, hid⟩

/-- A load returns one of the requests. -/
theorem getMessageById_sourced (id : MessageId) :
    Sourced svc g (getMessageById id) fun message g₁ =>
      ∀ m, message = some m → Requested g₁ m ∧ m.id = id := by
  unfold getMessageById
  refine sourced_bind (sourced_redis trivial) fun raw g₁ _ hr => readPicked_sourced fun h hh => ?_
  subst hh
  exact hr

theorem entryWait_proper (name : StageName) (c : StageEntryContext) (hc : c.retryCount ≠ none) :
    Sourced svc g ((stages name).entryWaitMs c) fun wait _ => wait ≠ none := by
  cases name with
  | retry =>
    refine sourced_then (proper_command trivial) fun random g₁ _ => sourced_pure fun _ _ => ?_
    obtain ⟨n, hn⟩ := Option.ne_none_iff_exists'.mp hc
    simp [hn]
  | _ => exact sourced_pure fun _ _ => nofun

/-- Every stage but retry has a wait that does not depend on the count. -/
theorem entryWait_fixed {name : StageName} (hn : name ≠ .retry) (c : StageEntryContext) :
    Sourced svc g ((stages name).entryWaitMs c) fun wait _ => wait ≠ none := by
  cases name with
  | retry => exact absurd rfl hn
  | _ => exact sourced_pure fun _ _ => nofun

theorem dueAfter_ne {now : Nat} {wait : Option ℚ} (hw : wait ≠ none) : dueAfter now wait ≠ none := by
  obtain ⟨k, rfl⟩ := Option.ne_none_iff_exists'.mp hw
  exact nofun

theorem nextStage_ne {pattern : DeliveryPattern} {current next : StageName}
    (h : nextStage pattern current = some next) : next ≠ .retry ∧ next ≠ .ns := by
  cases pattern <;> cases current <;> revert h <;> cases next <;> decide

theorem advance_proper (hp : svc.registry.delivery plugin.id = some plugin) (id : MessageId)
    (fromStage : StageName) (x : Option String) (n : ParsedInt) :
    IsProper svc g (advance svc id plugin fromStage x n) := by
  unfold advance
  split
  next => exact sourced_throw _
  next next hnext =>
    refine sourced_then (proper_command trivial) fun now g₁ _ => ?_
    refine sourced_bind (entryWait_fixed (nextStage_ne hnext).1 _) fun wait g₂ _ hw => ?_
    exact proper_redis (.inl ⟨plugin, fromStage, next, hp, hnext, rfl, rfl, rfl, dueAfter_ne hw⟩)

theorem succRetryCount_ne {n : ParsedInt} (hn : n ≠ none) : succRetryCount n ≠ none := by
  obtain ⟨k, rfl⟩ := Option.ne_none_iff_exists'.mp hn
  exact nofun

theorem enterRetry_proper (id : MessageId) (q : QueueKey) {n : ParsedInt} (hn : n ≠ none)
    (hist : List FailureReason) : IsProper svc g (enterRetry svc id q n hist plugin) := by
  unfold enterRetry
  refine sourced_then (proper_redis trivial) fun inQueue g₁ _ => ?_
  cases inQueue with
  | none => exact proper_pure _
  | some _ =>
    refine sourced_then (proper_command trivial) fun now g₂ _ => ?_
    refine sourced_bind (entryWait_proper .retry _ hn) fun wait g₃ _ hw => ?_
    refine sourced_then (proper_redis trivial) fun fields g₄ _ => ?_
    refine sourced_then (proper_redis ⟨dueAfter_ne hw, succRetryCount_ne hn⟩) fun _ _ _ => ?_
    exact proper_pure _

theorem retryOrFail_proper (id : MessageId) (q : QueueKey) (context : FailureContext) :
    IsProper svc g (retryOrFail svc id q context plugin) := by
  unfold retryOrFail
  refine sourced_bind (getMessageById_sourced id) fun message g₁ _ hm => ?_
  cases message with
  | none => exact proper_pure _
  | some m =>
    obtain ⟨hr, -⟩ := hm m rfl
    refine sourced_then (proper_command trivial) fun timestamp g₂ hg₂ => ?_
    dsimp only
    split
    next =>
      refine sourced_then (emit_proper _) fun _ g₃ hg₃ => ?_
      refine sourced_then (purge_proper (hr.mono (List.Subset.trans hg₂ hg₃))) fun _ _ _ => ?_
      exact proper_pure _
    next =>
      obtain ⟨dto, -, ho⟩ := hr
      exact sourced_then (enterRetry_proper _ _ ho.counted _) fun _ _ _ => proper_pure _

theorem processFailure_proper (id : MessageId) (e : ParsedIncomingEvent) :
    IsProper svc g (processFailure svc id e plugin) := by
  unfold processFailure
  refine sourced_bind (getMessageById_sourced id) fun message g₁ _ _ => ?_
  cases message with
  | none => exact proper_pure _
  | some m =>
    dsimp only
    split
    next => exact sourced_throw _
    next =>
      split
      next => exact proper_pure _
      next => exact retryOrFail_proper _ _ _

theorem processSuccess_proper (id : MessageId) (e : ParsedIncomingEvent) :
    IsProper svc g (processSuccess svc id e plugin) := by
  unfold processSuccess
  refine sourced_bind (getMessageById_sourced id) fun message g₁ _ hm => ?_
  cases message with
  | none => exact proper_pure _
  | some m =>
    obtain ⟨hr, -⟩ := hm m rfl
    refine sourced_then (proper_command trivial) fun timestamp g₂ hg₂ => ?_
    refine sourced_then (emit_proper _) fun _ g₃ hg₃ => ?_
    refine sourced_then (purge_proper (hr.mono (List.Subset.trans hg₂ hg₃))) fun _ _ _ => ?_
    exact proper_pure _

theorem processEvent_proper (hp : svc.registry.delivery plugin.id = some plugin)
    (e : ParsedIncomingEvent) : IsProper svc g (processEvent svc e plugin) := by
  unfold processEvent
  split
  next => exact sourced_then (emit_proper _) fun _ _ _ => proper_pure _
  next =>
    split
    next => exact proper_pure _
    next =>
      unfold getMessageIdFromDeliveryQueueId
      refine sourced_then (sourced_then (proper_redis trivial) fun _ _ _ => proper_pure _)
        fun id g₁ _ => ?_
      cases id with
      | none => exact proper_pure _
      | some id =>
        dsimp only
        unfold processIndexed
        split
        next => exact sourced_then (advance_proper hp _ _ _ _) fun _ _ _ => proper_pure _
        next =>
          split
          next => exact processFailure_proper _ _
          next =>
            split
            next => exact proper_pure _
            next => exact processSuccess_proper _ _

theorem home_of_owner {dto : CreateDeviceMessage} {m : DeviceMessage} (ho : OfRequest dto m)
    (hp : owner svc m = some plugin) :
    dto.home svc = some (plugin.initialQueueKey m.networkId m.device) ∧
      svc.registry.delivery plugin.id = some plugin := by
  unfold owner at hp
  rw [ho.pluginId, Option.bind_some] at hp
  refine ⟨?_, ?_⟩
  · rw [CreateDeviceMessage.home, hp, ho.networkId, ho.device]
    rfl
  · rwa [PluginRegistry.delivery_id hp]

theorem requeue_proper {dto : CreateDeviceMessage} {id : MessageId} {q : QueueKey} {n : ParsedInt}
    (hdto : (id, dto) ∈ g) (hq : dto.home svc = some q) (hn : n = some dto.priority.parseInt) :
    IsProper svc g (requeue id .retry q n) := by
  unfold requeue
  refine sourced_then (proper_redis (.inr ⟨dto, hdto, rfl, hq, rfl, ?_⟩)) fun moved g₁ _ => ?_
  · rw [hn]
    rfl
  cases moved with
  | true => exact sourced_then (proper_redis trivial) fun _ _ _ => proper_pure _
  | false => exact proper_pure _

theorem stageActions_proper (name : StageName) (c : StageActionContext)
    (hr : Requested g c.message) (hp : owner svc c.message = some c.plugin) :
    IsProper svc g (stageActions svc name c) := by
  obtain ⟨dto, hdto, ho⟩ := hr
  obtain ⟨hhome, hreg⟩ := home_of_owner ho hp
  cases name with
  | ns =>
    refine sourced_then (proper_command trivial) fun held g₁ _ => ?_
    cases held with
    | true => exact proper_pure _
    | false => exact retryOrFail_proper _ _ _
  | relayNode =>
    change IsProper svc g (relayNodeAction svc c)
    unfold relayNodeAction
    split
    next =>
      have hremote : IsProper svc g (remoteStillQueued c) := by
        refine sourced_then (proper_command trivial) fun answer g₁ _ => ?_
        cases answer <;> exact proper_pure _
      refine sourced_then hremote fun queued g₁ _ => ?_
      cases queued with
      | true => exact proper_pure _
      | false => exact retryOrFail_proper _ _ _
    next => exact retryOrFail_proper _ _ _
  | device => exact retryOrFail_proper _ _ _
  | awaitingTask =>
    change IsProper svc g (awaitingTaskAction svc c)
    unfold awaitingTaskAction
    split
    next =>
      refine sourced_then (sourced_then (proper_command trivial) fun timestamp g₁ hg₁ => ?_)
        fun _ _ _ => proper_pure _
      refine sourced_then (emit_proper _) fun _ g₂ hg₂ => purge_proper ?_
      exact ⟨dto, hg₂ (hg₁ hdto), { ho with }⟩
    next =>
      split
      next => exact proper_pure _
      next =>
        split
        next => exact proper_pure _
        next =>
          refine sourced_then (proper_command trivial) fun answer g₁ _ => ?_
          refine sourced_then ?_ fun event g₂ _ => ?_
          · cases answer with
            | ok a => exact proper_pure _
            | error e => exact sourced_throw _
          · cases event with
            | none => exact proper_pure _
            | some event => exact processEvent_proper hreg _
  | retry =>
    exact sourced_then (requeue_proper hdto hhome ho.priority) fun _ _ _ => proper_pure _

theorem rescheduleWait_proper (stage : StageName) (c : StageRescheduleContext) :
    IsProper svc g (rescheduleWaitMsFor stage c) := by
  cases stage with
  | retry => exact sourced_then (proper_command trivial) fun _ _ _ => proper_pure _
  | _ => exact proper_pure _

theorem reschedule_proper (stage : StageName) (m : DeviceMessage) (age : Int) :
    IsProper svc g (reschedule svc stage m age plugin) := by
  unfold reschedule
  refine sourced_then (rescheduleWait_proper _ _) fun wait g₁ _ => ?_
  exact sourced_then (proper_command trivial) fun _ _ _ => proper_redis ⟨stage, plugin.id, rfl⟩

theorem scrub_proper (q : QueueKey) (id : MessageId) :
    IsProper svc g (do
      let _ ← redis (.removeMessageFromQueue q id)
      return () : Engine Unit) :=
  sourced_then (proper_redis trivial) fun _ _ _ => proper_pure _

theorem drainMember_proper (queue : StageQueue) (now : Nat) (id : MessageId) :
    IsProper svc g (drainMember svc queue now id) := by
  unfold drainMember
  refine sourced_bind (getMessageById_sourced id) fun message g₁ _ hm => ?_
  cases message with
  | none => exact scrub_proper _ _
  | some m =>
    obtain ⟨hr, -⟩ := hm m rfl
    dsimp only
    split
    next => exact scrub_proper _ _
    next plugin hplugin =>
      have htime : IsProper svc g₁ (decodeTime svc id) := by
        unfold decodeTime
        split
        next => exact proper_pure _
        next => exact sourced_throw _
      refine sourced_then htime fun time g₂ hg₂ => ?_
      refine sourced_then (sourced_tryCatch (stageActions_proper _ _ (hr.mono hg₂) hplugin)
        fun _ _ _ => proper_pure _) fun outcome g₃ _ => ?_
      cases outcome with
      | orphaned => exact scrub_proper _ _
      | rescheduled => exact reschedule_proper _ _ _
      | _ => exact proper_pure _

theorem drainMembers_proper (queue : StageQueue) (now : Nat) (ids : List MessageId) :
    IsProper svc g (drainMembers svc queue now ids) := by
  induction ids generalizing g with
  | nil => exact proper_pure _
  | cons id ids ih => exact sourced_then (drainMember_proper _ _ _) fun _ _ _ => ih

theorem drainRow_proper (queue : StageQueue) (now : Nat) :
    IsProper svc g (drainRow svc queue now) := by
  refine sourced_then (proper_command trivial) fun began g₁ _ => ?_
  cases began with
  | false => exact proper_pure _
  | true =>
    have hdrain : IsProper svc g₁ (drain svc queue now) :=
      sourced_then (proper_redis trivial) fun ids _ _ => drainMembers_proper _ _ ids
    exact sourced_then (sourced_tryCatch hdrain fun _ _ _ => proper_pure _)
      fun _ _ _ => proper_command trivial

theorem trackedSend_proper (hp : svc.registry.delivery plugin.id = some plugin) (m : DeviceMessage)
    (token : Nat) : IsProper svc g (trackedSend svc plugin m token) := by
  have hafter : ∀ {g : Requests} (answer), IsProper svc g (afterSendOne svc plugin m answer) := by
    intro g answer
    unfold afterSendOne
    split
    next => exact sourced_then (retryOrFail_proper _ _ _) fun _ _ _ => proper_pure _
    next =>
      split
      next => exact sourced_then (retryOrFail_proper _ _ _) fun _ _ _ => proper_pure _
      next => exact sourced_then (advance_proper hp _ _ _ _) fun _ _ _ => proper_pure _
  refine sourced_then (sourced_tryCatch ?_ fun _ _ _ => proper_pure _)
    fun _ _ _ => proper_command trivial
  refine sourced_then (proper_command trivial) fun _ _ _ => ?_
  exact sourced_then (proper_command trivial) fun answer _ _ => hafter answer

theorem deadMembers_proper (ids : List MessageId) : IsProper svc g (deadMembers ids) := by
  induction ids generalizing g with
  | nil => exact proper_pure _
  | cons id ids ih =>
    refine sourced_then (sourced_tryCatch (proper_redis trivial) fun _ _ _ => proper_pure _)
      fun live g₁ _ => ?_
    exact sourced_then ih fun _ _ _ => proper_pure _

/-- What is admitted under a cap is admitted under a positive one. -/
theorem canAdmit_sourced (q : QueueKey) :
    Sourced svc g (canAdmit plugin q) fun admitted _ =>
      admitted = true → ∀ max, plugin.admission = .concurrency max → 0 < max := by
  unfold canAdmit
  split
  next ms hsp =>
    refine IsProper.ensures (proper_redis trivial) fun _ _ _ max he => ?_
    rw [hsp] at he
    cases he
  next max hmax =>
    have hpos : ∀ n : Nat, n < max → ∀ m, plugin.admission = .concurrency m → 0 < m := by
      intro n hn m he
      rw [hmax] at he
      cases he
      omega
    split
    next => exact sourced_pure fun _ _ he => nomatch he
    next =>
      refine sourced_then (proper_redis trivial) fun tracked g₁ _ => ?_
      split
      next =>
        refine sourced_then (sourced_then (proper_redis trivial) fun members g₂ _ => ?_)
          fun live g₂ _ => sourced_pure fun _ _ he => ?_
        · refine sourced_then (deadMembers_proper members) fun dead g₃ _ => ?_
          split
          next => exact proper_pure _
          next => exact sourced_then (proper_redis trivial) fun _ _ _ => proper_pure _
        · exact hpos live (of_decide_eq_true he)
      next hlt => exact sourced_pure fun _ _ _ => hpos tracked (by omega)

theorem pickIntoNs_proper {node : AdmissionNode}
    (hp : svc.registry.delivery node.pluginId = some plugin) (hne : node.pluginId ≠ "")
    (hmax : ∀ max, plugin.admission = .concurrency max → 0 < max) :
    IsProper svc g
      (pickIntoNs svc (.ready node) plugin (concurrencyRateLimit plugin (.ready node))) := by
  have hslot : ∀ t : Option ℚ, TakesSlot plugin.admission node {
      sourceQueue := .ready node
      destinationQueue := .ns
      concurrencyRateLimitKey :=
        (concurrencyRateLimit plugin (.ready node)).bind ConcurrencyRateLimit.key
      timeoutAt := t
      newStatus := .SENT_TO_NS
      maxInFlight :=
        ((concurrencyRateLimit plugin (.ready node)).map ConcurrencyRateLimit.max).getD 0 } := by
    intro t
    unfold TakesSlot concurrencyRateLimit
    cases hadm : plugin.admission with
    | spacing ms => rfl
    | concurrency max =>
      refine ⟨?_, rfl, hmax max hadm⟩
      simp [buildConcurrencyRateLimitKey, parseInitialQueueKey, hne]
  unfold pickIntoNs
  refine sourced_then (proper_command trivial) fun now g₁ _ => ?_
  refine sourced_bind (entryWait_fixed (by decide) _) fun wait g₂ _ hw => ?_
  refine sourced_then (proper_redis ⟨node, plugin, hp, rfl, rfl, rfl, dueAfter_ne hw, hslot _⟩)
    fun raw g₃ _ => ?_
  unfold readPicked
  split
  next => exact proper_pure _
  next =>
    split
    next => exact proper_pure _
    next => exact sourced_throw _

theorem distributeQueue_proper (q : QueueKey) : IsProper svc g (distributeQueue svc q) := by
  unfold distributeQueue
  split
  next => exact proper_pure _
  next plugin hq =>
    obtain ⟨id, hid, hp⟩ := Option.bind_eq_some_iff.mp hq
    obtain ⟨node, rfl, rfl⟩ := ready_of_pluginId hid
    have hne : node.pluginId ≠ "" := by
      intro he
      simp [getPluginIdFromInitialQueueKey, parseInitialQueueKey, he] at hid
    unfold distributeWith
    refine sourced_bind (canAdmit_sourced _) fun admitted g₁ _ hadm => ?_
    cases admitted with
    | false => exact proper_pure _
    | true =>
      simp only [↓reduceIte]
      refine sourced_then (pickIntoNs_proper hp hne (hadm rfl)) fun message g₂ _ => ?_
      cases message with
      | none => exact proper_pure _
      | some m =>
        refine sourced_then ?_ fun _ _ _ => proper_command trivial
        unfold emitFirstSend
        split
        next => exact emit_proper _
        next => exact proper_pure _

theorem spawnAll_proper {tasks : List Task} (ht : ∀ t ∈ tasks, t.Proper g) :
    IsProper svc g (spawnAll tasks) := by
  induction tasks generalizing g with
  | nil => exact proper_pure _
  | cons t tasks ih =>
    refine sourced_then (proper_command (ht t List.mem_cons_self)) fun _ g₁ hg₁ => ?_
    exact ih fun t' ht' => (ht t' (List.mem_cons_of_mem _ ht')).mono hg₁

theorem loadIndexed_sourced (keys : List (Option MessageId)) :
    Sourced svc g (loadIndexed keys) fun messages g₁ => ∀ m ∈ messages, Requested g₁ m := by
  induction keys generalizing g with
  | nil => exact sourced_pure fun _ _ _ hm => nomatch hm
  | cons key keys ih =>
    cases key with
    | none => exact ih
    | some id =>
      unfold loadIndexed
      have hload : Sourced svc g (tryCatch (redis (.hgetall id)) fun _ => pure none)
          fun raw g₁ => ∀ h, raw = some h → KnownHash g₁ id h := by
        refine sourced_tryCatch (fun g₁ hg => ?_) fun _ _ _ => sourced_pure fun _ _ _ he => nomatch he
        have hread : Sourced svc g (redis (.hgetall id)) fun raw g₁ =>
            ReplyKnown g₁ (.redis (.hgetall id)) (.ok raw) := sourced_redis trivial
        refine Prog.wp_mono (hread g₁ hg) (fun raw g₂ h => ⟨h.1, ?_⟩) fun _ _ h => h
        rintro h rfl
        exact h.2
      refine sourced_bind hload fun raw g₁ _ hraw => ?_
      refine sourced_bind (Q := fun loaded g₂ => ∀ m, loaded = some m → Requested g₂ m) ?_
        fun loaded g₂ _ hl => ?_
      · unfold readIndexed
        split
        next => exact sourced_pure fun _ _ _ he => nomatch he
        next x hx =>
          have hx : x = id := (Option.some.inj (messageIdFromKey_some hx)).symm
          subst hx
          intro g₂ hg₂
          exact Prog.wp_mono (readPicked_sourced hraw g₂ hg₂)
            (fun loaded g₃ h => ⟨h.1, fun m he => (h.2 m he).1⟩) fun _ _ h => h
      · refine sourced_bind ih fun messages g₃ hg₃ hm => sourced_pure fun g₄ hg₄ m hmem => ?_
        rcases List.mem_append.mp hmem with hmem | hmem
        · exact (hl m (Option.mem_toList.mp hmem)).mono (List.Subset.trans hg₃ hg₄)
        · exact (hm m hmem).mono hg₄

theorem enqueue_proper (create : CreateDeviceMessage) : IsProper svc g (enqueue svc create) := by
  unfold enqueue
  split
  next => exact sourced_throw _
  next => exact sourced_throw _
  next => exact sourced_throw _
  next plugin hp =>
    split
    next => exact sourced_throw _
    next =>
      split
      next => exact sourced_throw _
      next =>
        refine proper_redis ?_
        change create.home svc = _
        rw [CreateDeviceMessage.home, PluginRegistry.delivery_of_get hp]
        rfl

theorem cancelOneMessage_proper {m : DeviceMessage} (hm : Requested g m) :
    IsProper svc g (cancelOneMessage svc m) := by
  unfold cancelOneMessage
  split
  next => exact proper_pure _
  next =>
    split
    next => exact proper_pure _
    next =>
      refine sourced_then (proper_redis trivial) fun claimed g₁ hg₁ => ?_
      cases claimed with
      | false => exact proper_pure _
      | true => exact sourced_then (purge_proper (hm.mono hg₁)) fun _ _ _ => proper_pure _

/-- Work that can be started is handed-off work. -/
def Handler.Proper (g : Requests) (h : Handler) : Prop :=
  match h with
  | .task t => t.Proper g
  | _ => True

theorem handlerProgram_proper {h : Handler} (ht : h.Proper g) :
    IsProper svc g (handlerProgram svc h) := by
  cases h with
  | enqueue create => exact sourced_then (enqueue_proper create) fun _ _ _ => proper_pure _
  | distribute =>
    refine sourced_then (proper_redis trivial) fun queues _ _ => spawnAll_proper fun t ht => ?_
    obtain ⟨q, -, rfl⟩ := List.mem_map.mp ht
    trivial
  | tick =>
    refine sourced_then (proper_command trivial) fun now _ _ => spawnAll_proper fun t ht => ?_
    obtain ⟨q, -, rfl⟩ := List.mem_map.mp ht
    trivial
  | ingress pluginId event =>
    change IsProper svc g (ingress svc pluginId event)
    unfold ingress
    split
    next => exact proper_pure _
    next plugin hp =>
      split
      next =>
        have hp : svc.registry.delivery plugin.id = some plugin := by
          rwa [PluginRegistry.delivery_id hp]
        exact sourced_then (processEvent_proper hp _) fun _ _ _ => proper_pure _
      next => exact proper_pure _
  | cancel c =>
    refine sourced_bind (Q := fun messages g₁ => ∀ m ∈ messages, Requested g₁ m)
      (sourced_then (proper_redis trivial) fun keys _ _ => loadIndexed_sourced keys)
      fun messages g₁ _ hm => spawnAll_proper fun t ht => ?_
    obtain ⟨m, hmem, rfl⟩ := List.mem_map.mp ht
    exact hm m hmem
  | task t =>
    cases t with
    | drain queue now => exact drainRow_proper _ _
    | distributeQueue q => exact distributeQueue_proper q
    | send pluginId m token =>
      change IsProper svc g (send svc pluginId m token)
      unfold send
      split
      next => exact proper_pure _
      next plugin hp =>
        have hp : svc.registry.delivery plugin.id = some plugin := by
          rwa [PluginRegistry.delivery_id hp]
        exact trackedSend_proper hp _ _
    | cancelMessage m => exact sourced_then (cancelOneMessage_proper ht) fun _ _ _ => proper_pure _

end DeviceMessaging
