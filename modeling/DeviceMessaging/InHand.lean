import DeviceMessaging.Durability
import DeviceMessaging.OtherMembers

namespace DeviceMessaging

open Effect

/-- Whether a handler holds the message: loading it takes it up, and a terminal event of it that
cannot be handed over lets it go. -/
def heldAfter (id : MessageId) (held : Bool) (c : Cmd) (r : Reply c) : Bool :=
  match c, r with
  | .redis (.hgetall m), _ => held || decide (m = id)
  | .redis (.webhookEnqueue record _), .error _ => held && decide (record.terminalOf ≠ some id)
  | _, _ => held

/-- Who does not hold the message leaves it as it is. -/
def holdWatch (id : MessageId) : Monitor Cmd Reply Bool where
  allows held c := held = true ∨ c.Spares id
  next held c r held' := held' = heldAfter id held c r

/-- Where `need` says so the program must hold the message; otherwise it leaves it as it is until
it takes it up. It lets it go only by failing. -/
def Handles {α : Type} (id : MessageId) (need : Prop) (p : Engine α) : Prop :=
  ∀ held : Bool, (need → held = true) →
    p.wp (holdWatch id) (fun _ held' => held = true → held' = true) (fun _ _ => True) held

/-- A program that may also start, and end, without the message. -/
def Careful {α : Type} (id : MessageId) (p : Engine α) : Prop :=
  ∀ held : Bool, p.wp (holdWatch id) (fun _ _ => True) (fun _ _ => True) held

variable {svc : Service} {id m : MessageId} {need need' : Prop} {α β : Type}
  {plugin : DeliveryPlugin}

section Spares

theorem sameFor_of_beside {r r' : Redis} (h : Redis.SameBeside m r r') (hid : id ≠ m) :
    r.SameFor r' id := by
  refine ⟨h.hash id hid, fun q => ?_⟩
  have hscore := h.score id q hid
  rw [← not_iff_not, ← SortedSet.score_eq_none, ← SortedSet.score_eq_none, hscore]

theorem spares_redis {c : RedisCmd} (h : ∀ i (r : Redis), r.SameFor (c.run i r).2 id) :
    (Cmd.redis c).Spares id := by
  intro o w r w' hr
  rcases respond_store hr with hs | ⟨c', hc, -, hs⟩ <;> rw [hs]
  · exact ⟨rfl, fun _ => Iff.rfl⟩
  · cases hc
    exact h o.id w.store.redis

theorem spares_beside {c : RedisCmd} (h : ∀ i r, Redis.SameBeside m r (c.run i r).2)
    (hid : id ≠ m) : (Cmd.redis c).Spares id :=
  spares_redis fun i r => sameFor_of_beside (h i r) hid

theorem spares_same {c : RedisCmd} (h : ∀ i r, (c.run i r).2.messages = r.messages ∧
    (c.run i r).2.queues = r.queues) : (Cmd.redis c).Spares id :=
  spares_redis fun i r => ⟨congrFun (h i r).1 id, fun q => by rw [(h i r).2]⟩

end Spares

section Rules

theorem handles_pure (a : α) : Handles id need (pure a : Engine α) :=
  fun _ _ h => h

theorem handles_throw (e : String) : Handles id need (throw e : Engine α) :=
  fun _ _ => trivial

theorem handles_bind {p : Engine α} {f : α → Engine β} (hp : Handles id need p)
    (hf : ∀ a, Handles id need (f a)) : Handles id need (p >>= f) := by
  intro held hheld
  rw [Prog.wp_bind]
  refine Prog.wp_mono (hp held hheld) (fun a held₁ h₁ => ?_) fun _ _ h => h
  refine Prog.wp_mono (hf a held₁ fun hn => h₁ (hheld hn)) (fun _ held₂ h₂ h => ?_) fun _ _ h => h
  exact h₂ (h₁ h)

theorem Handles.mono {p : Engine α} (hp : Handles id need' p) (h : need' → need) :
    Handles id need p :=
  fun held hheld => hp held fun hn => hheld (h hn)

theorem Handles.careful {p : Engine α} (hp : Handles id False p) : Careful id p :=
  fun held => Prog.wp_mono (hp held False.elim) (fun _ _ _ => trivial) fun _ _ h => h

theorem careful_bind {p : Engine α} {f : α → Engine β} (hp : Careful id p)
    (hf : ∀ a, Careful id (f a)) : Careful id (p >>= f) := by
  intro held
  rw [Prog.wp_bind]
  exact Prog.wp_mono (hp held) (fun a held' _ => hf a held') fun _ _ h => h

theorem handles_command {c : Cmd} (hc : need ∨ c.Spares id)
    (hkeep : ∀ held r, heldAfter id held c r = held) :
    Handles id need (Prog.command c : Engine (Reply c)) := by
  intro held hheld
  refine ⟨hc.imp hheld fun h => h, fun r held' hr h => ?_⟩
  have hr : held' = heldAfter id held c r := hr
  rw [hr, hkeep, h]

theorem handles_redis {c : RedisCmd} (hc : need ∨ (Cmd.redis c).Spares id) :
    Handles id need (redis c) := by
  intro held hheld
  unfold redis
  rw [Prog.wp_bind, Prog.wp_command]
  refine ⟨hc.imp hheld fun h => h, fun r held' hr => ?_⟩
  cases r with
  | error e => trivial
  | ok v =>
    intro h
    have hr : held' = heldAfter id held (.redis c) (.ok v) := hr
    rw [hr]
    cases c with
    | hgetall x => exact Bool.or_eq_true_iff.mpr (.inl h)
    | _ => exact h

theorem handles_dateNow : Handles id need dateNow :=
  handles_command (.inr (spares_of_harmless rfl id)) fun _ _ => rfl

/-- What is loaded is held, and is the message that was asked for. -/
theorem getMessageById_holds (held : Bool) : (getMessageById m).wp (holdWatch id)
    (fun message held' => (held = true → held' = true) ∧ (m = id → held' = true) ∧
      ∀ x, message = some x → x.id = m) (fun _ _ => True) held := by
  unfold getMessageById redis
  rw [Prog.wp_bind, Prog.wp_bind, Prog.wp_command]
  refine ⟨.inr (spares_same fun _ _ => ⟨rfl, rfl⟩), fun r held' hr => ?_⟩
  have hr : held' = (held || decide (m = id)) := hr
  subst hr
  have hgrows : held = true → (held || decide (m = id)) = true :=
    fun h => Bool.or_eq_true_iff.mpr (.inl h)
  have hin : m = id → (held || decide (m = id)) = true :=
    fun h => Bool.or_eq_true_iff.mpr (.inr (decide_eq_true h))
  cases r with
  | error e => trivial
  | ok raw =>
    cases raw with
    | none => exact ⟨hgrows, hin, fun _ he => by cases he⟩
    | some hash =>
      simp only [Prog.wp_pure, readHash, Option.map_some, readPicked]
      cases hm : deserializeMessage m hash with
      | error e => trivial
      | ok message =>
        refine ⟨hgrows, hin, fun x he => ?_⟩
        cases he
        exact (deserializeMessage_fields hm).2.1

theorem handles_load {f : Option DeviceMessage → Engine β} (hnone : Handles id (m = id) (f none))
    (hsome : ∀ message, message.id = m → Handles id (m = id) (f (some message))) :
    Handles id need (getMessageById m >>= f) := by
  intro held _
  rw [Prog.wp_bind]
  refine Prog.wp_mono (getMessageById_holds held) (fun message held' h => ?_) fun _ _ h => h
  obtain ⟨hgrows, hin, hid⟩ := h
  cases message with
  | none => exact Prog.wp_mono (hnone held' hin) (fun _ _ h hh => h (hgrows hh)) fun _ _ h => h
  | some x =>
    exact Prog.wp_mono (hsome x (hid x rfl) held' hin) (fun _ _ h hh => h (hgrows hh))
      fun _ _ h => h

end Rules

section Programs

theorem emitDeliveryEvent_handles (pm : PartialMessage) :
    Handles id need (emitDeliveryEvent svc pm) := by
  unfold emitDeliveryEvent storeAndEmit
  split
  next =>
    refine handles_bind handles_dateNow fun occurredAt => handles_bind ?_ fun eventId => ?_
    · exact handles_command (.inr (spares_of_harmless rfl id)) fun _ _ => rfl
    · split
      next => exact handles_pure _
      next => exact handles_bind handles_dateNow fun now =>
        handles_redis (.inr (spares_same fun _ _ => ⟨rfl, rfl⟩))
  next => exact handles_pure _

theorem purge_handles (message : DeviceMessage) :
    Handles id (message.id = id) (purge message plugin) := by
  by_cases hid : message.id = id
  · exact handles_redis (.inl hid)
  · exact handles_redis (.inr (spares_beside (fun _ r => beside_cleanup message _ r)
      (Ne.symm hid)))

theorem zrem_handles (q : QueueKey) (m : MessageId) :
    Handles id (m = id) (redis (.removeMessageFromQueue q m)) := by
  by_cases hid : m = id
  · exact handles_redis (.inl hid)
  · exact handles_redis (.inr (spares_beside (fun _ r => beside_zrem q m r) (Ne.symm hid)))

theorem move_handles {a : MoveArgs} (ha : a.messageId = m) :
    Handles id (m = id) (redis (.moveMessageBetweenQueues a)) := by
  subst ha
  by_cases hid : a.messageId = id
  · exact handles_redis (.inl hid)
  · exact handles_redis (.inr (spares_beside (fun _ r => beside_move a r) (Ne.symm hid)))

theorem entryWaitMs_handles (name : StageName) (c : StageEntryContext) :
    Handles id need ((stages name).entryWaitMs c) := by
  cases name with
  | retry =>
    exact handles_bind (handles_command (c := .mathRandom) (.inr (spares_of_harmless rfl id))
      fun _ _ => rfl) fun _ => handles_pure _
  | _ => exact handles_pure _

theorem advance_handles (m : MessageId) (fromStage : StageName) (x : Option String)
    (n : ParsedInt) : Handles id (m = id) (advance svc m plugin fromStage x n) := by
  unfold advance
  split
  next => exact handles_throw _
  next next _ =>
    refine handles_bind handles_dateNow fun now => ?_
    exact handles_bind (entryWaitMs_handles _ _) fun wait => move_handles rfl

theorem enterRetry_handles (m : MessageId) (q : QueueKey) (n : ParsedInt)
    (history : List FailureReason) : Handles id (m = id) (enterRetry svc m q n history plugin) := by
  unfold enterRetry
  refine handles_bind (handles_redis (.inr (spares_same fun _ _ => ⟨rfl, rfl⟩))) fun inQueue => ?_
  cases inQueue with
  | none => exact handles_pure _
  | some _ =>
    refine handles_bind handles_dateNow fun now => ?_
    refine handles_bind (entryWaitMs_handles _ _) fun wait => ?_
    refine handles_bind (handles_redis (.inr (spares_same fun _ _ => ⟨rfl, rfl⟩))) fun fields => ?_
    refine handles_bind ?_ fun _ => handles_pure _
    by_cases hid : m = id
    · exact handles_redis (.inl hid)
    · exact handles_redis (.inr (spares_beside (fun _ r => beside_enterRetry _ r) (Ne.symm hid)))

theorem retryOrFail_handles (m : MessageId) (q : QueueKey) (context : FailureContext) :
    Handles id need (retryOrFail svc m q context plugin) := by
  unfold retryOrFail
  refine handles_load (handles_pure _) fun message hm => ?_
  refine handles_bind handles_dateNow fun timestamp => ?_
  dsimp only
  split
  next =>
    refine handles_bind (emitDeliveryEvent_handles _) fun _ => ?_
    exact handles_bind (hm ▸ purge_handles message) fun _ => handles_pure _
  next => exact handles_bind (enterRetry_handles _ _ _ _) fun _ => handles_pure _

theorem processFailure_handles (m : MessageId) (e : ParsedIncomingEvent) :
    Handles id need (processFailure svc m e plugin) := by
  unfold processFailure
  refine handles_load (handles_pure _) fun message _ => ?_
  dsimp only
  split
  next => exact handles_throw _
  next =>
    split
    next => exact handles_pure _
    next => exact retryOrFail_handles _ _ _

theorem processSuccess_handles (m : MessageId) (e : ParsedIncomingEvent) :
    Handles id need (processSuccess svc m e plugin) := by
  unfold processSuccess
  refine handles_load (handles_pure _) fun message hm => ?_
  refine handles_bind handles_dateNow fun timestamp => ?_
  refine handles_bind (emitDeliveryEvent_handles _) fun _ => ?_
  exact handles_bind (hm ▸ purge_handles message) fun _ => handles_pure _

/-- Only a transmission that is acknowledged moves a message without loading it. -/
theorem processEvent_handles (e : ParsedIncomingEvent) :
    Handles id (plugin.deliveryPattern = .PUSH) (processEvent svc e plugin) := by
  unfold processEvent
  split
  next => exact handles_bind (emitDeliveryEvent_handles _) fun _ => handles_pure _
  next =>
    split
    next => exact handles_pure _
    next x _ =>
      refine handles_bind (handles_bind (handles_redis (.inr (spares_same fun _ _ => ⟨rfl, rfl⟩)))
        fun _ => handles_pure _) fun messageId => ?_
      cases messageId with
      | none => exact handles_pure _
      | some m =>
        dsimp only
        unfold processIndexed
        split
        next hsent =>
          by_cases hid : m = id
          · exact handles_bind ((advance_handles m _ _ _).mono fun _ => hsent.2) fun _ =>
              handles_pure _
          · exact handles_bind ((advance_handles m _ _ _).mono fun he => absurd he hid) fun _ =>
              handles_pure _
        next =>
          split
          next => exact processFailure_handles _ _
          next =>
            split
            next => exact handles_pure _
            next => exact processSuccess_handles _ _

theorem stageActions_handles (name : StageName) (c : StageActionContext) :
    Handles id (c.message.id = id) (stageActions svc name c) := by
  have hlocal : ∀ d : Cmd, d.isHarmless = true → (∀ held r, heldAfter id held d r = held) →
      Handles id (c.message.id = id) (Prog.command d : Engine (Reply d)) :=
    fun _ hd hk => handles_command (.inr (spares_of_harmless hd id)) hk
  cases name with
  | ns =>
    refine handles_bind (hlocal (.hasInFlightSend _) rfl fun _ _ => rfl) fun held => ?_
    cases held with
    | true => exact handles_pure _
    | false => exact retryOrFail_handles _ _ _
  | relayNode =>
    change Handles id _ (relayNodeAction svc c)
    unfold relayNodeAction
    split
    next =>
      refine handles_bind ?_ fun queued => ?_
      · refine handles_bind (hlocal (.getRemoteStatus _ _) rfl fun _ _ => rfl) fun answer => ?_
        cases answer <;> exact handles_pure _
      · cases queued with
        | true => exact handles_pure _
        | false => exact retryOrFail_handles _ _ _
    next => exact retryOrFail_handles _ _ _
  | device => exact retryOrFail_handles _ _ _
  | awaitingTask =>
    change Handles id _ (awaitingTaskAction svc c)
    unfold awaitingTaskAction
    split
    next =>
      refine handles_bind (handles_bind handles_dateNow fun timestamp => ?_) fun _ => handles_pure _
      exact handles_bind (emitDeliveryEvent_handles _) fun _ => purge_handles (expiredMessage _ timestamp)
    next =>
      split
      next => exact handles_pure _
      next hpull =>
        split
        next => exact handles_pure _
        next =>
          refine handles_bind (hlocal (.fetchStatus _ _) rfl fun _ _ => rfl) fun answer => ?_
          cases answer with
          | error e => exact handles_throw _
          | ok event =>
            cases event with
            | none => exact handles_pure _
            | some event =>
              refine (processEvent_handles event).mono fun hpush => ?_
              exact absurd (hpush.symm.trans (not_not.mp hpull)) (by decide)
  | retry =>
    refine handles_bind ?_ fun _ => handles_pure _
    unfold requeue
    refine handles_bind (move_handles rfl) fun moved => ?_
    cases moved with
    | true =>
      refine handles_bind (handles_redis (c := .saddDistribute _) ?_) fun _ => handles_pure _
      exact .inr (spares_same fun _ _ => ⟨rfl, rfl⟩)
    | false => exact handles_pure _

theorem reschedule_careful (stage : StageName) (message : DeviceMessage) (age : Int) :
    Careful id (reschedule svc stage message age plugin) := by
  have hwait : Careful id (rescheduleWaitMsFor stage
      ⟨message, age, plugin.tuning, svc.delivery⟩) := by
    cases stage with
    | retry =>
      have hentry : Handles id False
          ((stages .retry).entryWaitMs ⟨plugin.tuning, svc.delivery, message.retryCount⟩) :=
        entryWaitMs_handles .retry _
      exact hentry.careful
    | _ => exact fun _ => trivial
  refine careful_bind hwait fun wait => careful_bind handles_dateNow.careful fun now => ?_
  exact (handles_redis (.inr (spares_of_harmless rfl id))).careful

theorem followUp_careful {held : Bool} (queue : StageQueue) (m : MessageId)
    (message : DeviceMessage) (age : Int) (outcome : StageOutcome) (hheld : m = id → held = true) :
    (followUp svc queue m message age plugin outcome).wp (holdWatch id) (fun _ _ => True)
      (fun _ _ => True) held := by
  cases outcome with
  | orphaned =>
    have hscrub : Handles id (m = id) (do
        let _ ← redis (.removeMessageFromQueue queue.key m)
        return () : Engine Unit) := handles_bind (zrem_handles _ m) fun _ => handles_pure _
    exact Prog.wp_mono (hscrub held hheld) (fun _ _ _ => trivial) fun _ _ h => h
  | rescheduled => exact reschedule_careful queue.stage message age held
  | movedOn => trivial
  | removed => trivial

theorem drainMember_careful (queue : StageQueue) (now : Nat) (m : MessageId) :
    Careful id (drainMember svc queue now m) := by
  have hscrub : Handles id (m = id) (do
      let _ ← redis (.removeMessageFromQueue queue.key m)
      return () : Engine Unit) := handles_bind (zrem_handles _ m) fun _ => handles_pure _
  intro held
  unfold drainMember
  rw [Prog.wp_bind]
  refine Prog.wp_mono (getMessageById_holds held) (fun message held h => ?_) fun _ _ h => h
  obtain ⟨-, hheld, hm⟩ := h
  cases message with
  | none => exact Prog.wp_mono (hscrub held hheld) (fun _ _ _ => trivial) fun _ _ h => h
  | some message =>
  have hm := hm message rfl
  dsimp only
  split
  next => exact Prog.wp_mono (hscrub held hheld) (fun _ _ _ => trivial) fun _ _ h => h
  next plugin _ =>
    unfold decodeTime
    split
    next time _ =>
      rw [Prog.wp_bind, Prog.wp_pure, Prog.wp_bind]
      unfold act
      rw [Prog.wp_tryCatch]
      have hact : Handles id (m = id) (stageActions svc queue.stage
          ⟨queue.key, message, plugin, (now : Int) - time⟩) := by
        subst hm
        exact stageActions_handles queue.stage ⟨queue.key, message, plugin, (now : Int) - time⟩
      refine Prog.wp_mono (hact held hheld) (fun outcome held' h => ?_) fun e held' _ => ?_
      · exact followUp_careful queue m message _ outcome fun hid => h (hheld hid)
      · rw [Prog.wp_pure]
        exact reschedule_careful queue.stage message _ held'
    next => trivial

theorem drainRow_careful (queue : StageQueue) (now : Nat) :
    Careful id (drainRow svc queue now) := by
  have hharmless : ∀ {c : Cmd}, c.isHarmless = true → Careful id (Prog.command c : Engine _) :=
    fun hc held => ⟨.inr (spares_of_harmless hc id), fun _ _ _ => trivial⟩
  have hmembers : ∀ ids, Careful id (drainMembers svc queue now ids) := by
    intro ids
    induction ids with
    | nil => exact fun _ => trivial
    | cons m ids ih => exact careful_bind (drainMember_careful queue now m) fun _ => ih
  have hlist : Careful id (drain svc queue now) :=
    careful_bind (handles_redis (.inr (spares_same fun _ _ => ⟨rfl, rfl⟩))).careful hmembers
  refine careful_bind (hharmless (c := .beginDrain _) rfl) fun began => ?_
  cases began with
  | false => exact fun _ => trivial
  | true =>
    refine careful_bind (fun held => ?_) fun _ => hharmless (c := .endDrain _) rfl
    rw [Prog.wp_tryCatch]
    exact Prog.wp_mono (hlist held) (fun _ _ _ => trivial) fun _ _ _ => trivial

end Programs

section Handlers

/-- Who holds the message may do anything with it. -/
theorem command_holds {c : Cmd} (hc : ∀ record now, c ≠ .redis (.webhookEnqueue record now)) :
    (Prog.command c : Engine (Reply c)).Keeps (holdWatch id) (· = true) := by
  intro held hheld
  refine ⟨.inl hheld, fun r held' hr => ?_⟩
  have hr : held' = heldAfter id held c r := hr
  rw [hr]
  unfold heldAfter
  split
  next => exact Bool.or_eq_true_iff.mpr (.inl hheld)
  next record now _ _ => exact absurd rfl (hc record now)
  next => exact hheld

theorem quiet_holds (c : Cmd) (hc : c.Quiet) :
    (Prog.command c : Engine (Reply c)).Keeps (holdWatch id) (· = true) :=
  command_holds fun record now he => by
    subst he
    exact hc

theorem handles_of_keeps {p : Engine α} (hp : p.Keeps (holdWatch id) (· = true)) :
    Handles id True p :=
  fun held hheld => Prog.wp_mono (hp held (hheld trivial)) (fun _ _ h _ => h) fun _ _ _ => trivial

theorem afterSendOne_handles (message : DeviceMessage) (answer : Except VendorError String) :
    Handles id True (afterSendOne svc plugin message answer) := by
  unfold afterSendOne
  split
  next => exact handles_bind (retryOrFail_handles _ _ _) fun _ => handles_pure _
  next =>
    split
    next => exact handles_bind (retryOrFail_handles _ _ _) fun _ => handles_pure _
    next =>
      refine handles_bind ?_ fun _ => handles_pure _
      exact (advance_handles _ _ _ _).mono fun _ => trivial

theorem distributeQueue_handles (q : QueueKey) : Handles id True (distributeQueue svc q) := by
  unfold distributeQueue
  split
  next => exact handles_pure _
  next plugin _ =>
    have hsweep : ∀ key, (validateAndCleanConcurrencyRateLimit key).Keeps (holdWatch id)
        (· = true) :=
      sweep_keeps quiet_holds fun _ _ => command_holds (by simp)
    have hadmit : (canAdmit plugin q).Keeps (holdWatch id) (· = true) :=
      canAdmit_keeps quiet_holds hsweep fun _ _ => command_holds (by simp)
    refine handles_bind (handles_of_keeps hadmit) fun admitted => ?_
    cases admitted with
    | false => exact handles_pure _
    | true =>
      unfold pickIntoNs
      refine handles_bind (handles_bind handles_dateNow fun now => ?_) fun message => ?_
      · refine handles_bind (entryWaitMs_handles _ _) fun wait => ?_
        refine handles_bind (handles_redis (.inl trivial)) fun raw => ?_
        exact handles_of_keeps (readPicked_keeps raw)
      · cases message with
        | none => exact handles_pure _
        | some message =>
          refine handles_bind ?_ fun _ => handles_of_keeps (command_holds (by simp))
          unfold emitFirstSend
          split
          next => exact emitDeliveryEvent_handles _
          next => exact handles_pure _

theorem trackedSend_holds (message : DeviceMessage) (token : Nat) :
    (trackedSend svc plugin message token).wp (holdWatch id) (fun _ _ => True) (fun _ _ => True)
      true := by
  have hsend : Handles id True (sendOneToNetworkServer svc plugin message) := by
    refine handles_bind (handles_of_keeps (command_holds (by simp))) fun _ => ?_
    exact handles_bind (handles_of_keeps (command_holds (by simp))) (afterSendOne_handles message)
  have hsettle : ∀ held : Bool, (Prog.command (Cmd.settleSend message.id token) : Engine Unit).wp
      (holdWatch id) (fun _ _ => True) (fun _ _ => True) held :=
    fun _ => ⟨.inr (spares_of_harmless rfl id), fun _ _ _ => trivial⟩
  unfold trackedSend
  rw [Prog.wp_bind, Prog.wp_tryCatch]
  exact Prog.wp_mono (hsend true fun _ => rfl) (fun _ held _ => hsettle held) fun _ held _ =>
    hsettle held

theorem Handles.starts {p : Engine Unit} (hp : Handles id True p) :
    p.wp (holdWatch id) (fun _ _ => True) (fun _ _ => True) true :=
  Prog.wp_mono (hp true fun _ => rfl) (fun _ _ _ => trivial) fun _ _ h => h

/-- A handler lets go of a message by failing to hand over its end, and then leaves it as it is
unless it loads it again. -/
theorem handlerProgram_holds (h : Handler) :
    (handlerProgram svc h).wp (holdWatch id) (fun _ _ => True) (fun _ _ => True) true := by
  have hspawns : ∀ tasks, Handles id True (spawnAll tasks) :=
    fun tasks => handles_of_keeps (spawnAll_keeps quiet_holds tasks)
  cases h with
  | enqueue create =>
    refine Handles.starts (handles_bind ?_ fun _ => handles_pure _)
    unfold enqueue
    split
    next => exact handles_throw _
    next => exact handles_throw _
    next => exact handles_throw _
    next =>
      split
      next => exact handles_throw _
      next =>
        split
        next => exact handles_throw _
        next => exact handles_redis (.inl trivial)
  | distribute => exact (handles_bind (handles_redis (.inl trivial)) fun _ => hspawns _).starts
  | tick => exact (handles_bind handles_dateNow fun _ => hspawns _).starts
  | ingress pluginId event =>
    refine Handles.starts (p := ingress svc pluginId event) ?_
    unfold ingress
    split
    next => exact handles_pure _
    next =>
      split
      next =>
        refine handles_bind ?_ fun _ => handles_pure _
        exact (processEvent_handles event).mono fun _ => trivial
      next => exact handles_pure _
  | cancel c =>
    refine (handles_bind ?_ fun _ => hspawns _).starts
    refine handles_bind (handles_redis (.inl trivial)) fun keys => ?_
    exact handles_of_keeps (loadIndexed_keeps quiet_holds keys)
  | task t =>
    cases t with
    | drain queue now => exact drainRow_careful queue now true
    | distributeQueue q => exact (distributeQueue_handles q).starts
    | send pluginId message token =>
      change (send svc pluginId message token).wp _ _ _ _
      unfold send
      split
      next => trivial
      next => exact trackedSend_holds message token
    | cancelMessage message =>
      refine (handles_bind ?_ fun _ => handles_pure ()).starts
      exact handles_of_keeps (cancelOneMessage_keeps quiet_holds message)

end Handlers

end DeviceMessaging
