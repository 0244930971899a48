import DeviceMessaging.CalmIncoming

namespace DeviceMessaging

open Effect

variable {svc : Service} {settled : DeliveryPattern → Prop} {ledger : List Issued}
  {polls : PollRule} {w w' : World} {m : MessageId} {a : Attempt} {plugin : DeliveryPlugin}
  {h : MessageHash}

theorem Sound.of_standing (hS : Sound svc settled ledger w) (ho : Only ledger m w w')
    (hs : StandsAt svc settled ledger w' m a) : Sound svc settled ledger w' :=
  hS.change ho (.inr ⟨a, hs⟩)

theorem Sound.of_gone (hS : Sound svc settled ledger w) (ho : Only ledger m w w') (hg : Gone w' m) :
    Sound svc settled ledger w' :=
  hS.change ho (.inl hg)

theorem Failed.sound {q : QueueKey} {context : FailureContext} {out : StageOutcome}
    (hS : Sound svc settled ledger w)
    (hf : Failed svc settled ledger w m a q context out w') : Sound svc settled ledger w' := by
  cases hf with
  | removed _ hg ho => exact hS.of_gone ho hg
  | retried _ _ hs ho => exact hS.of_standing ho hs
  | absent => exact hS

theorem Processed.sound {event : ParsedIncomingEvent} {out : StageOutcome}
    (hS : Sound svc settled ledger w)
    (hp : Processed svc settled ledger w plugin event out w') : Sound svc settled ledger w' := by
  cases hp with
  | unsolicited _ ho => exact hS.untouched fun x => (ho x).toUntouched
  | unnamed => exact hS
  | unknown => exact hS
  | applied _ _ _ _ _ he =>
    cases he with
    | transmitted _ _ _ ho hs => exact hS.of_standing ho hs
    | elsewhere _ _ _ _ ho => exact hS.untouched fun x => (ho x).toUntouched
    | failed _ _ hf => exact hf.sound hS
    | delivered _ hg ho => exact hS.of_gone ho hg
    | nothing => exact hS

/-- The context of a failure event. -/
def eventFailure (event : ParsedIncomingEvent) : FailureContext :=
  event.failureContext.getD
    { reason := "Unable to deliver message after negative remote response" }

/-- The event leads somewhere: it asks for nothing, or its id is indexed to a
message, which it can claim from the stage its status names when it fails the
attempt without failing the message for good. -/
def Routable (svc : Service) (plugin : DeliveryPlugin) (event : ParsedIncomingEvent) (w : World) :
    Prop :=
  event.unsolicited = true ∨ truthy event.deliveryQueueId = none ∨
    ∃ x m, truthy event.deliveryQueueId = some x ∧ w.store.redis.externals x = some m ∧
      (event.deliveryStatus = .DELIVERY_FAILED →
        ∃ message, (w.store.redis.messages m).map (deserializeMessage m) = some (.ok message) ∧
        (isFinalFailure svc (eventFailure event) message.retryCount = true ∨
          ∃ status stage, message.deliveryStatus = some status ∧
            stageForStatus status plugin.deliveryPattern = some stage ∧
            m ∈ w.store.redis.queues (stageKeyFor stage plugin.id)))

/-- A routable event orphans nothing, and what it orphans it leaves as it was. -/
theorem Processed.not_orphaned {event : ParsedIncomingEvent}
    (hp : Processed svc settled ledger w plugin event .orphaned w') :
    w' = w ∧ ¬ Routable svc plugin event w := by
  cases hp with
  | unknown hu hx hm =>
    refine ⟨rfl, fun hr => ?_⟩
    rcases hr with hr | hr | ⟨x, m, hx', hm', -⟩
    · rw [hu] at hr
      cases hr
    · rw [hx] at hr
      cases hr
    · cases hx.symm.trans hx'
      rw [hm] at hm'
      cases hm'
  | @applied x m a _ _ hu hx hm hs hi he =>
    cases he with
    | @failed stage _ _ he hstage hf =>
      cases hf with
      | absent hfinal hq =>
        refine ⟨rfl, fun hr => ?_⟩
        rcases hr with hr | hr | ⟨x', m', hx', hm', hr⟩
        · rw [hu] at hr
          cases hr
        · rw [hx] at hr
          cases hr
        · cases hx.symm.trans hx'
          cases hm.symm.trans hm'
          obtain ⟨message, hmsg, hr⟩ := hr he
          obtain ⟨h, hh, hst, -⟩ := hs
          obtain ⟨message', hm', hl⟩ := hst.load m
          simp only [hh, Option.map_some, hm', Option.some.injEq, Except.ok.injEq] at hmsg
          subst hmsg
          rcases hr with hr | ⟨status, stage', hstatus, hstage', hq'⟩
          · rw [hl.count] at hr
            exact absurd (hfinal.symm.trans hr) (by decide)
          · cases hl.status.symm.trans hstatus
            cases hstage.symm.trans hstage'
            exact hq hq'

theorem mem_enumerateStageQueues {ids : List PluginId} {queue : StageQueue}
    (hq : queue ∈ enumerateStageQueues ids) : ∃ p, queue.key = stageKeyFor queue.stage p := by
  unfold enumerateStageQueues at hq
  obtain ⟨stage, -, hq⟩ := List.mem_flatMap.mp hq
  split at hq
  next =>
    obtain ⟨p, -, rfl⟩ := List.mem_map.mp hq
    exact ⟨p, rfl⟩
  next =>
    rw [List.mem_singleton] at hq
    subst hq
    exact ⟨"", rfl⟩

/-- What a stage says about a message that waits in it. -/
def StageFits (stage : StageName) (a : Attempt) : Prop :=
  match stage with
  | .ns => a.status = .SENT_TO_NS
  | .relayNode => a.status = .DELIVERED_TO_NS ∧ a.plugin.deliveryPattern = .PUSH
  | .device => a.status = .SENT_TO_DEVICE
  | .awaitingTask => a.status = .DELIVERED_TO_NS ∧ a.plugin.deliveryPattern = .PULL
  | .retry => a.status = .TO_RETRY

theorem stage_of_station {stage : StageName} {p : PluginId}
    (hs : a.station = some (stageKeyFor stage p)) :
    StageFits stage a ∧ stageKeyFor stage p = stageKeyFor stage a.plugin.id := by
  unfold Attempt.station stationKey at hs
  split at hs
  next =>
    rw [Option.some.injEq] at hs
    unfold Attempt.readyQueue DeliveryPlugin.initialQueueKey buildInitialQueueKey at hs
    cases stage <;> cases hs
  next hq =>
    obtain ⟨stage', hst, hk⟩ := Option.map_eq_some_iff.mp hs
    have he : stage' = stage := by cases stage' <;> cases stage <;> first | rfl | cases hk
    subst he
    refine ⟨?_, hk.symm⟩
    unfold stageForStatus at hst
    split at hst <;> try cases hst
    next hd => exact hd
    next hd =>
      split at hst <;> cases hst
      · exact ⟨hd, by assumption⟩
      · refine ⟨hd, ?_⟩
        cases hpat : a.plugin.deliveryPattern with
        | PUSH => contradiction
        | PULL => rfl
    next hd => exact hd
    next hd => exact hd

/-- What an action leaves to the runner: an orphan is only ever reported of a
message whose pattern is not settled, and it is as it was. -/
def ActedOn (svc : Service) (settled : DeliveryPattern → Prop) (ledger : List Issued) (w : World)
    (a : Attempt) (out : StageOutcome) (w' : World) : Prop :=
  Sound svc settled ledger w' ∧ (out = .orphaned → ¬ settled a.plugin.deliveryPattern ∧ w' = w)

theorem Failed.actedOn {q : QueueKey} {context : FailureContext} {out : StageOutcome}
    (hS : Sound svc settled ledger w) (hq : m ∈ w.store.redis.queues q)
    (hf : Failed svc settled ledger w m a q context out w') :
    ActedOn svc settled ledger w a out w' := by
  refine ⟨hf.sound hS, fun he => ?_⟩
  cases hf with
  | removed => cases he
  | retried => cases he
  | absent _ hn => exact absurd hq hn

variable {message : DeviceMessage} {queueKey : QueueKey} {age : Int}

/-- The failure of a deadline that passed in the stage. -/
def timedOut (stage : StageName) (plugin : DeliveryPlugin) : FailureContext :=
  { reason := timeoutReason stage plugin.relayNodeNoun }

theorem timeOut_calm {stage : StageName} {q : QueueKey} (hs : StandsAt svc settled ledger w m a)
    (hid : message.id = m) (hsend : w.outstanding m = []) :
    (timeOut svc stage q ⟨queueKey, message, a.plugin, age⟩).wp (calm polls)
      (Failed svc settled ledger w m a q (timedOut stage a.plugin)) NoThrow w := by
  unfold timeOut
  dsimp only
  rw [hid]
  exact retryOrFail_calm hs hsend fun _ => rfl

/-- A stage whose action is a deadline on the vendor's next word. -/
def StageName.IsDeadline (stage : StageName) : Prop :=
  stage = .ns ∨ stage = .relayNode ∨ stage = .device

/-- A deadline is put off, or its attempt has failed. -/
theorem deadline_calm {stage : StageName} (hstage : stage.IsDeadline)
    (hh : w.store.redis.messages m = some h) (hst : Standing svc h a)
    (hp : Places settled ledger w m h a) (hid : message.id = m) (hfit : StageFits stage a) :
    (stageActions svc stage ⟨stageKeyFor stage a.plugin.id, message, a.plugin, age⟩).wp (calm polls)
      (fun out w' => (out = .rescheduled ∧ w' = w) ∨
        Failed svc settled ledger w m a (stageKeyFor stage a.plugin.id) (timedOut stage a.plugin)
          out w') NoThrow w := by
  have hs : StandsAt svc settled ledger w m a := ⟨h, hh, hst, hp⟩
  have hfails : ∀ {stage : StageName} {q key : QueueKey}, w.outstanding m = [] →
      (timeOut svc stage q ⟨key, message, a.plugin, age⟩).wp (calm polls)
        (fun out w' => (out = .rescheduled ∧ w' = w) ∨
          Failed svc settled ledger w m a q (timedOut stage a.plugin) out w') NoThrow w :=
    fun hsend => Prog.wp_mono (timeOut_calm hs hid hsend) (fun _ _ h => .inr h) fun _ _ h => h
  rcases hstage with rfl | rfl | rfl
  · change (nsAction svc _).wp _ _ _ w
    unfold nsAction
    rw [Prog.wp_bind, wp_hasInFlightSend]
    cases hheld : (w.inFlightSends message.id).isSome with
    | true => exact .inl ⟨rfl, rfl⟩
    | false =>
      have hfree : w.inFlightSends m = none := by
        rw [← hid]
        exact Option.isNone_iff_eq_none.mp (Option.isSome_eq_false_iff.mp hheld)
      exact hfails (hp.no_send_of_free hfree)
  · have hsend : w.outstanding m = [] := hp.no_send (by rw [hfit.1]; decide)
    change (relayNodeAction svc _).wp _ _ _ w
    unfold relayNodeAction
    split
    next =>
      unfold remoteStillQueued
      rw [Prog.wp_bind, Prog.wp_bind, wp_getRemoteStatus]
      intro answer
      cases answer with
      | error e => exact hfails hsend
      | ok status =>
        simp only [Prog.wp_pure]
        split
        next => exact .inl ⟨rfl, rfl⟩
        next => exact hfails hsend
    next => exact hfails hsend
  · exact hfails (hp.no_send (by rw [hfit]; decide))

/-- A message that its task outlived is ended. -/
theorem aged_calm (hst : Standing svc h a) (hp : Places settled ledger w m h a)
    (hl : Loaded m h a message) (hfit : StageFits .awaitingTask a)
    (hage : pullMaxMessageAgeMs ≤ age) :
    (awaitingTaskAction svc ⟨queueKey, message, a.plugin, age⟩).wp (calm polls)
      (fun out w' => out = .removed ∧ Gone w' m ∧ Only ledger m w w') NoThrow w := by
  have hsend : w.outstanding m = [] := hp.no_send (by rw [hfit.1]; decide)
  have hown : a.status = .QUEUED → a.plugin = a.plugin := fun _ => rfl
  unfold awaitingTaskAction failPermanently
  rw [if_pos hage]
  simp only [Prog.wp_bind, wp_dateNow]
  intro timestamp
  have hsnap : Snapshot m h a (expiredMessage message timestamp) :=
    ⟨hl.id, hl.pluginId, hl.networkId, hl.device, hl.correlation, hl.deliveryQueueId, hl.slot⟩
  have hpm : (expiredMessage message timestamp).toPartial.id = some m := congrArg some hl.id
  have hep := emit_purge_calm polls StageOutcome.removed hst hp hsnap hsend hown hpm
  simp only [Prog.wp_bind] at hep
  refine Prog.wp_mono hep (fun _ w₁ hw₁ => ?_) fun _ _ h => h
  exact Prog.wp_mono hw₁ (fun _ w' hv => ⟨rfl, hv.2⟩) fun _ _ h => h

theorem awaitingTask_calm (hS : Sound svc settled ledger w)
    (hpolls : settled .PULL → ∀ w p plugin event, svc.registry.delivery p = some plugin →
      polls w p event → Routable svc plugin event w)
    (hst : Standing svc h a) (hp : Places settled ledger w m h a) (hl : Loaded m h a message)
    (hfit : StageFits .awaitingTask a) :
    (awaitingTaskAction svc ⟨queueKey, message, a.plugin, age⟩).wp (calm polls)
      (ActedOn svc settled ledger w a) (fun _ => Sound svc settled ledger) w := by
  have hsame : ActedOn svc settled ledger w a .rescheduled w := ⟨hS, fun he => by cases he⟩
  by_cases hage : pullMaxMessageAgeMs ≤ age
  · refine Prog.wp_mono (aged_calm hst hp hl hfit hage) (fun out w' h => ?_) fun _ _ h => h.elim
    obtain ⟨rfl, hg, ho⟩ := h
    exact ⟨hS.of_gone ho hg, fun he => by cases he⟩
  unfold awaitingTaskAction
  rw [if_neg hage]
  split
  next => exact hsame
  next =>
    split
    next => exact hsame
    next =>
      unfold pollTask
      rw [Prog.wp_bind, wp_fetchStatus]
      intro answer hanswer
      cases answer with
      | error e => exact hS
      | ok event =>
        cases event with
        | none => exact hsame
        | some event =>
          have hdel : svc.registry.delivery a.plugin.id = some a.plugin :=
            hst.plugin_id ▸ hst.owned
          refine Prog.wp_mono (processEvent_calm hS event a.plugin) (fun out w' hev => ?_)
            fun _ _ h => h.elim
          refine ⟨hev.sound hS, ?_⟩
          rintro rfl
          obtain ⟨rfl, hnr⟩ := hev.not_orphaned
          refine ⟨fun hset => hnr ?_, rfl⟩
          rw [hfit.2] at hset
          exact hpolls hset w' a.plugin.id a.plugin event hdel (hanswer event rfl)

theorem retry_calm (hS : Sound svc settled ledger w) (hh : w.store.redis.messages m = some h)
    (hst : Standing svc h a) (hp : Places settled ledger w m h a) (hl : Loaded m h a message)
    (hq : m ∈ w.store.redis.queues .retry) (hfit : StageFits .retry a) :
    (retryAction ⟨queueKey, message, a.plugin, age⟩).wp (calm polls)
      (ActedOn svc settled ledger w a) (fun _ => Sound svc settled ledger) w := by
  obtain ⟨p, hprio⟩ := hl.priority
  unfold retryAction requeue
  dsimp only
  rw [hl.id, hl.readyQueue, hprio]
  simp only [Prog.wp_bind]
  have hmove := move_calm polls {
      sourceQueue := .retry
      destinationQueue := a.readyQueue
      messageId := m
      destinationScore := some (-1 * (p : ℚ))
      deliveryStatus := .QUEUED } hh hst hp hq rfl (hp.no_send (by rw [hfit]; decide)) rfl
    (fun _ => hst.free (.inr hfit))
    (.none rfl rfl ⟨fun hi => absurd (show DeliveryStatus.IsIndexed .QUEUED from hi) (by decide), fun hi => absurd hi (by rw [hfit]; decide)⟩)
  refine Prog.wp_mono hmove (fun moved w₁ hw₁ => ?_) fun _ _ h => h.elim
  obtain ⟨rfl, ho, hs⟩ := hw₁
  have hS₁ : Sound svc settled ledger w₁ := hS.of_standing ho hs
  simp only [↓reduceIte, Prog.wp_bind]
  rw [wp_redis_plain rfl]
  exact ⟨hS₁.untouched fun x => .after
    ⟨rfl, fun _ => Iff.rfl, fun _ h => h, fun _ h => h, fun _ h => h, fun _ _ h => h⟩ (fun he => by cases he),
    fun he => by cases he⟩

theorem stageActions_calm {stage : StageName} (hS : Sound svc settled ledger w)
    (hpolls : settled .PULL → ∀ w p plugin event, svc.registry.delivery p = some plugin →
      polls w p event → Routable svc plugin event w)
    (hh : w.store.redis.messages m = some h) (hst : Standing svc h a)
    (hp : Places settled ledger w m h a) (hl : Loaded m h a message)
    (hq : m ∈ w.store.redis.queues (stageKeyFor stage a.plugin.id)) (hfit : StageFits stage a) :
    (stageActions svc stage ⟨stageKeyFor stage a.plugin.id, message, a.plugin, age⟩).wp (calm polls)
      (ActedOn svc settled ledger w a) (fun _ => Sound svc settled ledger) w := by
  have hdeadline : stage.IsDeadline →
      (stageActions svc stage ⟨stageKeyFor stage a.plugin.id, message, a.plugin, age⟩).wp
        (calm polls) (ActedOn svc settled ledger w a) (fun _ => Sound svc settled ledger) w := by
    intro hstage
    refine Prog.wp_mono (deadline_calm hstage hh hst hp hl.id hfit) (fun out w' h => ?_)
      fun _ _ h => h.elim
    rcases h with ⟨rfl, rfl⟩ | hf
    · exact ⟨hS, fun he => by cases he⟩
    · exact hf.actedOn hS hq
  cases stage with
  | ns => exact hdeadline (.inl rfl)
  | relayNode => exact hdeadline (.inr (.inl rfl))
  | device => exact hdeadline (.inr (.inr rfl))
  | awaitingTask => exact awaitingTask_calm hS hpolls hst hp hl hfit
  | retry => exact retry_calm hS hh hst hp hl hq hfit

theorem reschedule_uninvolved (ledger : List Issued) {stage : StageName} :
    (reschedule svc stage message age plugin).wp (calm polls)
      (fun _ w' => ∀ x, Uninvolved ledger x w w') (fun _ w' => ∀ x, Uninvolved ledger x w w') w := by
  have hwait : ∀ {Q : Option ℚ → World → Prop} {E : String → World → Prop}, (∀ ms, Q ms w) →
      (rescheduleWaitMsFor stage ⟨message, age, plugin.tuning, svc.delivery⟩).wp (calm polls)
        Q E w := by
    intro Q E hQ
    cases stage with
    | retry =>
      change (calculateBackoffDelay message.retryCount svc.delivery).wp _ _ _ w
      unfold calculateBackoffDelay
      simp only [Prog.wp_bind, wp_mathRandom]
      exact fun x _ => hQ _
    | _ => exact hQ _
  unfold reschedule
  rw [Prog.wp_bind]
  refine hwait fun ms => ?_
  simp only [Prog.wp_bind, wp_dateNow]
  intro now
  rw [wp_redis_plain rfl]
  cases hdue : dueAfter now ms with
  | none => exact fun x => .after .refl (fun he => by cases he) fun _ _ he => by cases he
  | some score =>
    have hs : ∀ x, Spared ledger x w.store.redis ((RedisCmd.zaddXx (stageKeyFor stage plugin.id)
        (some score) message.id).run "" w.store.redis).2 :=
      fun x => spared_setQueue SortedSet.mem_rescore
    exact fun x => .after (hs x) (fun he => by cases he) fun _ _ he => by cases he

/-- Taking a message out of a queue breaks no account unless it is to stay there. -/
theorem Sound.zrem {q : QueueKey} (hS : Sound svc settled ledger w)
    (hs : StandsAt svc settled ledger w m a) (hn : ¬ settled a.plugin.deliveryPattern) :
    Sound svc settled ledger (w.after (.removeMessageFromQueue q m) "") := by
  obtain ⟨h, hh, hst, hp⟩ := hs
  refine hS.change (m := m) (fun x hx => .after (spared_zrem q hx) nofun fun _ _ he => nomatch he) ?_
  exact .inr ⟨a, h, hh, hst, hp.zrem hn⟩

/-- One due member of a stage queue, with the runner's follow-up, keeps all
accounts. -/
theorem drainMember_calm_sound {ids : List PluginId} {queue : StageQueue} {now : Nat}
    (hS : Sound svc settled ledger w)
    (hpolls : settled .PULL → ∀ w p plugin event, svc.registry.delivery p = some plugin →
      polls w p event → Routable svc plugin event w)
    (hqueue : queue ∈ enumerateStageQueues ids) (hq : m ∈ w.store.redis.queues queue.key) :
    (drainMember svc queue now m).wp (calm polls) (fun _ => Sound svc settled ledger)
      (fun _ => Sound svc settled ledger) w := by
  rcases hS m with hn | ⟨a, hs⟩
  · exact absurd hq (hn.queues _)
  obtain ⟨h, hh, hst, hp⟩ := hs
  obtain ⟨message, hm, hl⟩ := hst.load m
  obtain ⟨p, hkey⟩ := mem_enumerateStageQueues hqueue
  have hstation := hp.queues _ hq
  rw [hkey] at hstation
  obtain ⟨hfit, hkey'⟩ := stage_of_station hstation
  have hkey : queue.key = stageKeyFor queue.stage a.plugin.id := hkey.trans hkey'
  unfold drainMember
  rw [Prog.wp_bind]
  refine getMessageById_calm hh hm ?_
  simp only [hst.owner hl.toSnapshot]
  unfold decodeTime
  cases svc.decodeTime m with
  | none => exact hS
  | some time =>
    rw [Prog.wp_bind, Prog.wp_pure, Prog.wp_bind, hkey]
    unfold act
    rw [Prog.wp_tryCatch]
    have hfollow : ∀ out w₁, ActedOn svc settled ledger w a out w₁ →
        (followUp svc queue m message ((now : Int) - time) a.plugin out).wp (calm polls)
          (fun _ => Sound svc settled ledger) (fun _ => Sound svc settled ledger) w₁ := by
      rintro out w₁ ⟨hS₁, horphan⟩
      cases out with
      | rescheduled =>
        refine Prog.wp_mono (reschedule_uninvolved ledger) (fun _ w' hw' => ?_) fun _ w' hw' => ?_ <;>
          exact hS₁.untouched fun x => (hw' x).toUntouched
      | movedOn => exact hS₁
      | removed => exact hS₁
      | orphaned =>
        obtain ⟨hn, rfl⟩ := horphan rfl
        unfold followUp
        rw [Prog.wp_bind, wp_redis_plain rfl]
        exact hS₁.zrem ⟨h, hh, hst, hp⟩ hn
    refine Prog.wp_mono (stageActions_calm hS hpolls hh hst hp hl (hkey ▸ hq) hfit)
      (fun out w₁ hw₁ => hfollow out w₁ hw₁) fun _ w₁ hS₁ => ?_
    exact hfollow .rescheduled w₁ ⟨hS₁, nofun⟩

end DeviceMessaging
