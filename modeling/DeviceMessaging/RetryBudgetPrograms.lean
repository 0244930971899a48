import DeviceMessaging.CalmMoves
import DeviceMessaging.RetryBudget

namespace DeviceMessaging

open Effect Prog

variable {svc : Service} {s s' : World × Tally} {m : MessageId} {hash : MessageHash} {h : Handler}
  {plugin : DeliveryPlugin} {message : DeviceMessage}

/-- The program keeps the budget from every state within it. -/
abbrev Thrifty (svc : Service) (h : Handler) {α : Type} (p : Engine α) : Prop :=
  p.Keeps (tally svc h) (Budget svc)

/-- It keeps the budget from this state on. -/
abbrev InBudget (svc : Service) (h : Handler) {α : Type} (p : Engine α) (s : World × Tally) : Prop :=
  p.wp (tally svc h) (fun _ => Budget svc) (fun _ => Budget svc) s

theorem thrifty_routine {c : RedisCmd} (hc : c.Routine) :
    Thrifty svc h (Prog.command (Cmd.redis c) : Engine (Except String c.Value)) := by
  intro s hb
  refine ⟨trivial, fun r s' hr => ?_⟩
  obtain ⟨hr, ht⟩ := hr
  obtain ⟨id, hf, rfl, hw⟩ := calmExec_redis.mp hr
  obtain rfl : s' = afterCommand svc h c id s := Prod.ext hw ht
  exact hb.routine hc hf

/-- What is no Redis command is at most a report. -/
theorem note_counts {c : Cmd} (hc : ∀ c', c ≠ .redis c') (w : World) (r : Reply c) (t : Tally) :
    (Tally.note svc h w c r t).picks = t.picks ∧
      (Tally.note svc h w c r t).failures = t.failures := by
  cases c with
  | redis c => exact absurd rfl (hc c)
  | fetchStatus p message =>
    cases r with
    | error e => exact ⟨rfl, rfl⟩
    | ok event => cases event <;> exact ⟨rfl, rfl⟩
  | _ => exact ⟨rfl, rfl⟩

theorem thrifty_command {c : Cmd} (hc : ∀ c', c ≠ .redis c') :
    Thrifty svc h (Prog.command c : Engine (Reply c)) := by
  intro s hb
  refine ⟨trivial, fun r s' hr => ?_⟩
  obtain ⟨⟨-, o, -, hr⟩, ht⟩ := hr
  obtain ⟨hp, hf⟩ := @note_counts svc h c hc s.1 r s.2
  rcases respond_store hr with hs | ⟨c', rfl, -⟩
  · exact hb.same hs (ht ▸ hp) (ht ▸ hf)
  · exact absurd rfl (hc c')

theorem thrifty_quiet (c : Cmd) (hc : c.Quiet) :
    Thrifty svc h (Prog.command c : Engine (Reply c)) := by
  cases c with
  | redis c =>
    refine thrifty_routine ?_
    unfold RedisCmd.Routine
    split <;> first | exact hc.elim | trivial
  | _ => exact thrifty_command fun _ => nofun

theorem thrifty_sweep (key : AdmissionNode) :
    Thrifty svc h (validateAndCleanConcurrencyRateLimit key) :=
  sweep_keeps thrifty_quiet (fun _ _ => thrifty_routine trivial) key

theorem nextStage_regular {pattern : DeliveryPattern} {fromStage next : StageName}
    (hn : nextStage pattern fromStage = some next) {a : MoveArgs} {p : PluginId}
    (hdest : a.destinationQueue = stageKeyFor next p)
    (hstatus : a.deliveryStatus = (stages next).entryStatus) : a.Regular := by
  obtain ⟨hretry, hns⟩ := nextStage_ne hn
  refine ⟨?_, ?_, fun hq => ?_⟩
  · rw [hstatus, hdest, stageKeyFor_status]
  · rw [hdest]
    cases next with
    | retry => exact absurd rfl hretry
    | _ => simp [stageKeyFor, stages]
  · rw [hstatus] at hq
    cases next <;> cases hq

theorem advance_thrifty (messageId : MessageId) (fromStage : StageName) (x : Option String)
    (n : ParsedInt) : Thrifty svc h (advance svc messageId plugin fromStage x n) :=
  advance_keeps thrifty_quiet (fun _ _ hn hdest hstatus =>
    thrifty_routine (nextStage_regular hn hdest hstatus)) messageId x n

theorem sentEvents_handedOver (s : Store) (record : WebhookStoredRecord) (now : Nat)
    (id x : MessageId) :
    (s.exec (.webhookEnqueue record now) id).2.sentEvents x = s.sentEvents x ++
      if record.event.message.deliveryStatus = .SENT_TO_NS ∧ record.event.message.id = some x then
        [record]
      else [] := by
  have hp : (s.exec (.webhookEnqueue record now) id).2.persisted = s.persisted ++ [record] := rfl
  unfold Store.sentEvents
  rw [hp, List.filter_append, List.filter_cons, List.filter_nil]
  simp only [decide_eq_true_eq]

/-- Handing an event over keeps the budget when it is the first of its kind, or
fails a message duly. -/
theorem Budget.handedOver (hb : Budget svc s) {record : WebhookStoredRecord} {now : Nat}
    {id : MessageId}
    (hsent : record.event.message.deliveryStatus = .SENT_TO_NS →
      ∀ m, record.event.message.id = some m → s.1.store.sentEvents m = [] ∧
        ∃ hash, s.1.store.redis.messages m = some hash ∧ ¬ hash.Waits)
    (hfail : record.event.message.deliveryStatus = .DELIVERY_FAILED →
      ∀ m, record.event.message.id = some m →
        FailsDuly svc h s.2.report (s.1.store.redis.messages m) m
          record.event.message.failureHistory) :
    Budget svc (afterCommand svc h (.webhookEnqueue record now) id s) := by
  have hstore : (afterCommand svc h (.webhookEnqueue record now) id s).1.store =
      { s.1.store with
        redis := webhookEnqueueMulti record now s.1.store.redis
        named := record.event.message.id.toList ++ s.1.store.named
        persisted := s.1.store.persisted ++ [record] } := rfl
  have hnotes : (afterCommand svc h (.webhookEnqueue record now) id s).2 = { s.2 with
      failures := (s.2.failure h s.1.store.redis record).toList ++ s.2.failures } := rfl
  have hnamed : ∀ x ∈ s.1.store.named,
      x ∈ record.event.message.id.toList ++ s.1.store.named :=
    fun x hx => List.mem_append_right _ hx
  have hevents := sentEvents_handedOver s.1.store record now id
  refine ⟨hb.placement.shrink (fun x q hx => hx) hnamed, fun x => ?_, fun f hf m hm => ?_,
    fun other hr hstatus => ?_⟩
  · by_cases hx : record.event.message.deliveryStatus = .SENT_TO_NS ∧
      record.event.message.id = some x
    · obtain ⟨hnone, hash, hh, hwaits⟩ := hsent hx.1 x hx.2
      have hb' := hb.balance x
      obtain ⟨⟨n, history, hat, hpick, -⟩, hplaced⟩ := hb'.stored hash hh
      refine ⟨hb'.picks, ?_, fun hash' hh' => ?_, fun hn => ?_⟩
      · have he := hevents x
        rw [hnone, if_pos hx, List.nil_append] at he
        exact (congrArg List.length he).le
      · cases hh.symm.trans hh'
        exact ⟨⟨n, history, hat, hpick, fun hw => absurd hw hwaits⟩, hplaced⟩
      · refine absurd (List.mem_append_left _ ?_) hn
        rw [RedisCmd.names, hx.2]
        exact List.mem_singleton.mpr rfl
    · have he := hevents x
      rw [if_neg hx, List.append_nil] at he
      exact (hb.balance x).frame (fun _ hh => hh) (fun _ hq => hq) (hnamed x) he rfl
  · rw [hnotes] at hf
    rcases List.mem_append.mp hf with hf | hf
    · have hf := Option.mem_toList.mp hf
      unfold Tally.failure at hf
      split at hf
      next hst =>
        cases hf
        have hd := hfail hst m hm
        have hid : record.event.message.id = some m := hm
        unfold Failure.Justified
        rw [hid]
        exact hd
      next => cases hf
    · exact hb.failures f hf m hm
  · rw [hnotes]
    rw [hstore] at hr
    rcases List.mem_append.mp hr with hr | hr
    · obtain ⟨f, hf, he⟩ := hb.recorded other hr hstatus
      exact ⟨f, List.mem_append_right _ hf, he⟩
    · obtain rfl := List.mem_singleton.mp hr
      refine ⟨⟨h, s.2.report, other.event.message.id.bind s.1.store.redis.messages, other⟩, ?_, rfl⟩
      refine List.mem_append_left _ (Option.mem_toList.mpr ?_)
      unfold Tally.failure
      rw [if_pos hstatus]

theorem buildWebhookEvent_history {pm : PartialMessage} {now : Nat} {ev : String}
    {event : WebhookEvent} (hb : buildWebhookEvent pm now ev = .ok event) :
    event.message.failureHistory = pm.failureHistory := by
  unfold buildWebhookEvent at hb
  split at hb <;> try cases hb
  rfl

theorem emit_inBudget {pm : PartialMessage} (hb : Budget svc s)
    (hsent : pm.deliveryStatus = some .SENT_TO_NS → ∀ m, pm.id = some m →
      s.1.store.sentEvents m = [] ∧
        ∃ hash, s.1.store.redis.messages m = some hash ∧ ¬ hash.Waits)
    (hfail : pm.deliveryStatus = some .DELIVERY_FAILED → ∀ m, pm.id = some m →
      FailsDuly svc h s.2.report (s.1.store.redis.messages m) m pm.failureHistory) :
    InBudget svc h (emitDeliveryEvent svc pm) s := by
  unfold emitDeliveryEvent
  split
  next =>
    unfold storeAndEmit
    rw [InBudget, wp_bind]
    refine tally_dateNow fun occurredAt => ?_
    rw [wp_bind]
    refine tally_ulid fun eventId => ?_
    cases he : buildWebhookEvent pm occurredAt eventId with
    | error e => exact hb
    | ok event =>
      obtain ⟨hid, hstatus⟩ := buildWebhookEvent_id he
      have hhist := buildWebhookEvent_history he
      dsimp only
      rw [wp_bind]
      refine tally_dateNow fun now => ?_
      rw [tally_plain rfl]
      refine hb.handedOver (fun hst m hm => ?_) fun hst m hm => ?_
      · exact hsent (hstatus.trans (congrArg some hst)) m (hid.symm.trans hm)
      · exact hhist ▸ hfail (hstatus.trans (congrArg some hst)) m (hid.symm.trans hm)
  next => exact hb

/-- An event that neither announces a send nor fails a message. -/
theorem emit_other {pm : PartialMessage}
    (hpm : pm.id = none ∨ pm.deliveryStatus = some .DELIVERY_SUCCESSFUL) :
    Thrifty svc h (emitDeliveryEvent svc pm) := by
  intro s hb
  refine emit_inBudget hb (fun hst m hm => ?_) fun hst m hm => ?_
  · rcases hpm with hpm | hpm
    · cases hpm.symm.trans hm
    · cases hpm.symm.trans hst
  · rcases hpm with hpm | hpm
    · cases hpm.symm.trans hm
    · cases hpm.symm.trans hst

theorem purge_thrifty (message : DeviceMessage) : Thrifty svc h (purge message plugin) :=
  purge_keeps thrifty_quiet message

/-- A message as its hash at the `n`-th retry loads. -/
theorem MessageHash.AtRetry.load {maxRetries n : Nat} {history : List FailureReason}
    (hat : hash.AtRetry maxRetries n history) (hm : deserializeMessage m hash = .ok message) :
    message.id = m ∧ message.retryCount = some (n : Int) ∧ message.failureHistory = history ∧
      message.deliveryStatus = hash.deliveryStatus := by
  obtain ⟨-, hid, -, hstatus, -, -, -, -, hcount, -, -⟩ := deserializeMessage_fields hm
  have hhist := deserializeMessage_history hm
  refine ⟨hid, ?_, ?_, hstatus⟩
  · rw [hcount, hat.count]
    rfl
  · rw [hat.recorded] at hhist
    exact (FieldText.text.inj hhist).symm

theorem retryHash_fields (a : EnterRetryMulti) (hash : MessageHash) :
    (retryHash a hash).retryCount = some (a.retryCount.elim .unreadable .text) ∧
      (retryHash a hash).failureHistory = some (.text a.failureHistory) ∧
      (retryHash a hash).deliveryStatus = some .TO_RETRY :=
  ⟨rfl, rfl, rfl⟩

/-- The retry transaction records one more failure, under one more attempt. -/
theorem Budget.retried (hb : Budget svc s) {a : EnterRetryMulti} {n : Nat}
    {history : List FailureReason} {entry : FailureReason} {id : MessageId}
    (hh : s.1.store.redis.messages a.messageId = some hash)
    (hat : hash.AtRetry svc.delivery.maxRetries n history)
    (hq : a.messageId ∈ s.1.store.redis.queues a.fromKey)
    (hcount : a.retryCount = some ((n : Int) + 1)) (hhist : a.failureHistory = entry :: history)
    (hentry : entry.isFinal = false) (hn : n < svc.delivery.maxRetries) :
    Budget svc (afterCommand svc h (.enterRetry a) id s) := by
  have hplace : Placement (s.1.store.exec (.enterRetry a) id).2 :=
    placement_exec hb.placement (.inl hq) fun hd => nomatch hd
  have hmsgs := enterRetry_messages a s.1.store.redis
  rw [hh, Option.getD_some] at hmsgs
  obtain ⟨hcount', hhist', hstatus'⟩ := retryHash_fields a hash
  have hat' : (retryHash a hash).AtRetry svc.delivery.maxRetries (n + 1) (entry :: history) := by
    refine ⟨?_, ?_, ?_, fun e he => ?_, hn⟩
    · rw [hcount', hcount]
      rfl
    · rw [hhist', hhist]
      rfl
    · rw [List.length_cons, hat.length]
    · rcases List.mem_cons.mp he with rfl | he
      · exact hentry
      · exact hat.pending e he
  obtain ⟨n', history', hat'', hpick, -⟩ := ((hb.balance a.messageId).stored hash hh).retry
  have hnn : n' = n := by
    have he := hat''.count.symm.trans hat.count
    simpa using he
  subst hnn
  refine hb.change (m := a.messageId) hplace (fun x hx hash' hh' => ?_) (fun x hx q hq' => ?_)
    (named_exec _ _ _) rfl (fun _ _ => rfl) rfl ?_
  · have hh' := (congrFun hmsgs x).symm.trans hh'
    rwa [Function.update_of_ne hx] at hh'
  · exact ((mem_enterRetry hq').resolve_right fun e => hx e.1).1
  · refine ⟨(hb.balance _).picks, (hb.balance _).sent, fun hash' hh' => ?_,
      fun hx => absurd List.mem_cons_self hx⟩
    have hh' := (congrFun hmsgs a.messageId).symm.trans hh'
    rw [Function.update_self] at hh'
    cases hh'
    refine ⟨⟨n' + 1, _, hat', le_trans hpick (Nat.le_succ _), fun _ => ⟨hpick, nofun⟩⟩,
      fun q hq' => ?_⟩
    rcases mem_enterRetry hq' with ⟨hq', hne⟩ | ⟨-, rfl⟩
    · exact absurd (hb.placement.single _ _ _ hq' hq) (hne rfl)
    · rw [hstatus']
      rfl

theorem enterRetry_inBudget (hb : Budget svc s) {q : QueueKey} {n : Nat}
    {history : List FailureReason} {entry : FailureReason}
    (hh : s.1.store.redis.messages m = some hash)
    (hat : hash.AtRetry svc.delivery.maxRetries n history) (hentry : entry.isFinal = false)
    (hn : n < svc.delivery.maxRetries) :
    InBudget svc h (enterRetry svc m q (some (n : Int)) (entry :: history) plugin) s := by
  unfold enterRetry
  rw [InBudget, wp_bind, tally_zscore]
  cases hscore : (s.1.store.redis.queues q).score m with
  | none => exact hb
  | some k =>
    dsimp only
    rw [wp_bind]
    refine tally_dateNow fun now => ?_
    rw [wp_bind]
    change (calculateBackoffDelay (some (n : Int)) svc.delivery).wp _ _ _ s
    unfold calculateBackoffDelay
    rw [wp_bind]
    refine tally_mathRandom fun random => ?_
    rw [wp_pure, wp_bind, tally_hmget, wp_bind, tally_plain rfl]
    exact hb.retried hh hat (mem_of_score hscore) rfl rfl hentry hn

/-- The vendor forbids another attempt of the message only where it said so. -/
def Reported (context : FailureContext) (m : MessageId) (s : World × Tally) : Prop :=
  context.skipRetry = true → ∃ c, s.2.report = some (m, c) ∧ c.skipRetry = true

theorem retryOrFail_inBudget {q : QueueKey} {context : FailureContext} (hb : Budget svc s)
    (hr : Reported context m s) : InBudget svc h (retryOrFail svc m q context plugin) s := by
  unfold retryOrFail
  rw [InBudget, wp_bind]
  refine tally_getMessageById hb (fun _ => hb) fun hash message hh hm => ?_
  obtain ⟨n, history, hat, -, -⟩ := ((hb.balance m).stored hash hh).retry
  obtain ⟨hid, hcount, hhist, -⟩ := hat.load hm
  dsimp only
  rw [wp_bind]
  refine tally_dateNow fun timestamp => ?_
  rw [hcount, hhist]
  split
  next hfinal =>
    rw [wp_bind]
    refine wp_mono (emit_inBudget hb (fun hst => nomatch hst) fun _ m' hm' => ?_) (fun _ s' hb' => ?_)
      fun _ _ hb' => hb'
    · cases hm'
      rw [hid]
      refine ⟨hash, n, history, _, hh, hat, rfl, hfinal, ?_⟩
      unfold isFinalFailure at hfinal
      rcases Bool.or_eq_true_iff.mp hfinal with hs | hs
      · obtain ⟨c, hc, hskip⟩ := hr hs
        exact .skipped hc hskip
      · have hle : (svc.delivery.maxRetries : Int) ≤ n := of_decide_eq_true hs
        have hle' := hat.le
        exact .exhausted (by omega)
    · rw [wp_bind]
      exact wp_mono (purge_thrifty message s' hb') (fun _ _ hb' => hb') fun _ _ hb' => hb'
  next hfinal =>
    rw [wp_bind]
    have hfinal : isFinalFailure svc context (some (n : Int)) = false := Bool.eq_false_iff.mpr hfinal
    have hn : n < svc.delivery.maxRetries := by
      unfold isFinalFailure at hfinal
      have hlt : ¬ (svc.delivery.maxRetries : Int) ≤ n :=
        of_decide_eq_false (Bool.or_eq_false_iff.mp hfinal).2
      omega
    exact wp_mono (enterRetry_inBudget hb hh hat hfinal hn) (fun _ _ hb' => hb') fun _ _ hb' => hb'

theorem processSuccess_thrifty (messageId : MessageId) {event : ParsedIncomingEvent}
    (he : event.deliveryStatus = .DELIVERY_SUCCESSFUL) :
    Thrifty svc h (processSuccess svc messageId event plugin) := by
  refine keeps_bind (getMessageById_keeps thrifty_quiet messageId) fun message => ?_
  cases message with
  | none => exact keeps_pure _
  | some message =>
    refine keeps_bind (thrifty_quiet .dateNow trivial) fun timestamp => ?_
    refine keeps_bind (emit_other (.inr (congrArg some he))) fun _ => ?_
    exact keeps_bind (purge_thrifty message) fun _ => keeps_pure _

theorem processIndexed_inBudget {event : ParsedIncomingEvent} (hb : Budget svc s)
    (hr : ∀ context, event.failureContext = some context → Reported context m s) :
    InBudget svc h (processIndexed svc m event plugin) s := by
  unfold processIndexed
  split
  next =>
    have hp : Thrifty svc h (do
        let _ ← advance svc m plugin .relayNode none (some 0)
        return StageOutcome.movedOn : Engine StageOutcome) :=
      keeps_bind (advance_thrifty _ _ _ _) fun _ => keeps_pure _
    exact hp s hb
  next =>
    split
    next =>
      unfold processFailure
      rw [InBudget, wp_bind]
      refine tally_getMessageById hb (fun _ => hb) fun hash message hh hm => ?_
      dsimp only
      split
      next => exact hb
      next =>
        split
        next => exact hb
        next =>
          refine retryOrFail_inBudget hb ?_
          cases hc : event.failureContext with
          | none => exact nofun
          | some context => exact hr context hc
    next =>
      split
      next => exact hb
      next hne => exact processSuccess_thrifty m (not_not.mp hne) s hb

/-- An event is processed within the budget when it was the last thing reported. -/
theorem processEvent_inBudget {event : ParsedIncomingEvent} (hb : Budget svc s)
    (hr : s.2.report = eventReport s.1.store.redis event) :
    InBudget svc h (processEvent svc event plugin) s := by
  unfold processEvent
  split
  next =>
    have hp : Thrifty svc h (do
        emitDeliveryEvent svc (unsolicitedMessage event plugin)
        return StageOutcome.rescheduled : Engine StageOutcome) :=
      keeps_bind (emit_other (.inl rfl)) fun _ => keeps_pure _
    exact hp s hb
  next =>
    split
    next => exact hb
    next x hx =>
      unfold getMessageIdFromDeliveryQueueId
      rw [InBudget, wp_bind, wp_bind, tally_getExternalIndex, wp_pure]
      cases hid : messageIdFromKey (s.1.store.redis.externals x) with
      | none => exact hb
      | some id =>
        refine processIndexed_inBudget hb fun context hc hskip => ⟨context, ?_, hskip⟩
        rw [hr]
        unfold eventReport
        rw [hx, Option.bind_some, messageIdFromKey_some hid, Option.bind_some, hc]
        rfl

theorem pollTask_inBudget {c : StageActionContext} (hb : Budget svc s) :
    InBudget svc h (pollTask svc c) s := by
  unfold pollTask
  rw [InBudget, wp_bind, wp_command]
  refine ⟨trivial, fun answer ⟨w', t'⟩ hr => ?_⟩
  obtain ⟨⟨-, o, -, hr⟩, ht⟩ := hr
  cases hr
  have hb' : Budget svc (s.1, t') := by
    obtain ⟨hp, hf⟩ := @note_counts svc h (.fetchStatus c.plugin.id c.message)
      (fun _ => nofun) s.1 o.polled s.2
    exact hb.same rfl (ht ▸ hp) (ht ▸ hf)
  rw [wp_bind]
  cases hpolled : o.polled with
  | error e => exact hb'
  | ok event =>
    cases event with
    | none => exact hb'
    | some event =>
      refine processEvent_inBudget hb' ?_
      have ht : t' = Tally.note svc h s.1 (.fetchStatus c.plugin.id c.message) o.polled s.2 := ht
      rw [hpolled] at ht
      rw [ht]
      rfl

theorem timeOut_inBudget {name : StageName} {q : QueueKey} {c : StageActionContext}
    (hb : Budget svc s) : InBudget svc h (timeOut svc name q c) s :=
  retryOrFail_inBudget hb nofun

theorem failPermanently_inBudget (hb : Budget svc s)
    (hh : s.1.store.redis.messages m = some hash) (hm : deserializeMessage m hash = .ok message)
    (hcause : ∀ n, FailureCause svc h s.2.report m n) :
    InBudget svc h (failPermanently svc message plugin) s := by
  obtain ⟨n, history, hat, -, -⟩ := ((hb.balance m).stored hash hh).retry
  obtain ⟨hid, -, hhist, -⟩ := hat.load hm
  unfold failPermanently
  rw [InBudget, wp_bind]
  refine tally_dateNow fun timestamp => ?_
  rw [wp_bind]
  refine wp_mono (emit_inBudget hb (fun hst => nomatch hst) fun _ m' hm' => ?_)
    (fun _ s' hb' => purge_thrifty _ s' hb') fun _ _ hb' => hb'
  cases hm'
  refine ⟨hash, n, history, failureEntry { reason := timeoutReason .awaitingTask none }
    (some .DELIVERED_TO_NS) timestamp true, ?_, hat, ?_, rfl, ?_⟩
  · exact (congrArg s.1.store.redis.messages hid).trans hh
  · exact congrArg some (congrArg _ hhist)
  · exact hid.symm ▸ hcause n

theorem awaitingTask_inBudget {c : StageActionContext} (hb : Budget svc s)
    (hh : s.1.store.redis.messages m = some hash) (hm : deserializeMessage m hash = .ok c.message)
    (hcause : pullMaxMessageAgeMs ≤ c.messageAgeMs → ∀ n, FailureCause svc h s.2.report m n) :
    InBudget svc h (awaitingTaskAction svc c) s := by
  unfold awaitingTaskAction
  split
  next hage =>
    rw [InBudget, wp_bind]
    exact wp_mono (failPermanently_inBudget hb hh hm (hcause hage)) (fun _ _ hb' => hb')
      fun _ _ hb' => hb'
  next =>
    split
    next => exact hb
    next =>
      split
      next => exact hb
      next => exact pollTask_inBudget hb

theorem remoteStillQueued_thrifty (c : StageActionContext) :
    Thrifty svc h (remoteStillQueued c) := by
  refine keeps_bind (thrifty_quiet (.getRemoteStatus _ _) trivial) fun answer => ?_
  cases answer <;> exact keeps_pure _

theorem requeue_thrifty {id : MessageId} {node : AdmissionNode} {priority : ParsedInt} :
    Thrifty svc h (requeue id .retry (.ready node) priority) := by
  refine requeue_keeps thrifty_quiet (fun a hsource hdest hstatus => thrifty_routine ?_) id priority
  refine ⟨?_, ?_, fun _ => hsource⟩
  · rw [hstatus, hdest]
    rfl
  · rw [hdest]
    exact nofun

theorem stageActions_inBudget {name : StageName} {c : StageActionContext} (hb : Budget svc s)
    (hh : s.1.store.redis.messages m = some hash) (hm : deserializeMessage m hash = .ok c.message)
    (hcause : name = .awaitingTask → pullMaxMessageAgeMs ≤ c.messageAgeMs →
      ∀ n, FailureCause svc h s.2.report m n) :
    InBudget svc h (stageActions svc name c) s := by
  cases name with
  | ns =>
    change InBudget svc h (nsAction svc c) s
    unfold nsAction
    rw [InBudget, wp_bind]
    refine wp_mono (thrifty_quiet (.hasInFlightSend c.message.id) trivial s hb) (fun held s' hb' => ?_)
      fun _ _ hb' => hb'
    split
    next => exact hb'
    next => exact timeOut_inBudget hb'
  | relayNode =>
    change InBudget svc h (relayNodeAction svc c) s
    unfold relayNodeAction
    split
    next =>
      rw [InBudget, wp_bind]
      refine wp_mono (remoteStillQueued_thrifty c s hb) (fun queued s' hb' => ?_) fun _ _ hb' => hb'
      split
      next => exact hb'
      next => exact timeOut_inBudget hb'
    next => exact timeOut_inBudget hb
  | device => exact timeOut_inBudget hb
  | awaitingTask => exact awaitingTask_inBudget hb hh hm (hcause rfl)
  | retry =>
    change InBudget svc h (retryAction c) s
    unfold retryAction
    rw [InBudget, wp_bind]
    exact wp_mono (requeue_thrifty s hb) (fun _ _ hb' => hb') fun _ _ hb' => hb'

theorem drainMember_thrifty (queue : StageQueue) (now : Nat) (id : MessageId) :
    Thrifty svc (.task (.drain queue now)) (drainMember svc queue now id) := by
  have hscrub : Thrifty svc (.task (.drain queue now)) (do
      let _ ← redis (.removeMessageFromQueue queue.key id)
      return () : Engine Unit) :=
    keeps_bind (keeps_redis (thrifty_quiet (.redis (.removeMessageFromQueue _ _)) trivial))
      fun _ => keeps_pure _
  intro s hb
  unfold drainMember
  rw [wp_bind]
  refine tally_getMessageById (hscrub s hb) (fun _ => hb) fun hash message hh hm => ?_
  dsimp only
  split
  next => exact hscrub s hb
  next plugin _ =>
    unfold decodeTime
    cases htime : svc.decodeTime id with
    | none => exact hb
    | some time =>
      have hfollow : ∀ outcome, Thrifty svc (.task (.drain queue now))
          (followUp svc queue id message ((now : Int) - time) plugin outcome) :=
        followUp_keeps thrifty_quiet queue id message _
      rw [wp_bind, wp_pure, wp_bind]
      unfold act
      rw [wp_tryCatch]
      refine wp_mono (stageActions_inBudget hb hh hm fun hstage hage n => ?_)
        (fun outcome s' hb' => hfollow outcome s' hb') fun _ s' hb' => hfollow .rescheduled s' hb'
      exact .aged rfl hstage htime hage

theorem drainRow_thrifty (queue : StageQueue) (now : Nat) :
    Thrifty svc (.task (.drain queue now)) (drainRow svc queue now) := by
  have hmembers : ∀ ids, Thrifty svc (.task (.drain queue now)) (drainMembers svc queue now ids) := by
    intro ids
    induction ids with
    | nil => exact keeps_pure _
    | cons id ids ih => exact keeps_bind (drainMember_thrifty queue now id) fun _ => ih
  refine keeps_bind (thrifty_quiet (.beginDrain _) trivial) fun began => ?_
  cases began with
  | false => exact keeps_pure _
  | true =>
    refine keeps_bind (keeps_tryCatch ?_ fun _ => keeps_pure _)
      fun _ => thrifty_quiet (.endDrain _) trivial
    exact keeps_bind (keeps_redis (thrifty_quiet (.redis (.getExpiredMessagesInQueue _ _)) trivial))
      fun ids => hmembers ids

end DeviceMessaging
