import DeviceMessaging.EndWatch

namespace DeviceMessaging

open Effect

variable {svc : Service}

/-- The event of a message that names its plugin is built, stored, and then the
message may be deleted. -/
theorem emit_then_purge {pm : PartialMessage} {message : DeviceMessage} {plugin : DeliveryPlugin}
    {d : DeliveryStatus} {p : PluginId} {dev : Device} (hw : svc.webhook = true)
    (hid : pm.id = some message.id) (hp : pm.pluginId = some p) (hne : p ≠ "")
    (hd : pm.deliveryStatus = some d) (hterm : d.IsTerminal) (hdev : pm.device = some dev) :
    FromIdle (emitDeliveryEvent svc pm >>= fun _ => purge message plugin) := by
  have hbuild : ∀ at' ev, ∃ event, buildWebhookEvent pm at' ev = .ok event ∧
      event.message.deliveryStatus = d ∧ event.message.id = some message.id := by
    intro at' ev
    simp [buildWebhookEvent, hp, hd, hdev, truthy_some hne, hid]
  have hpurge : (purge message plugin).wp endWatch (fun _ g => g = .idle) (fun _ g => g.Calm)
      (.emitted message.id) := by
    unfold purge redis
    rw [Prog.wp_bind, Prog.wp_command]
    refine ⟨rfl, fun r g' hr => ?_⟩
    obtain ⟨-, rfl⟩ := hr
    cases r with
    | ok v => rfl
    | error e => exact calm_idle
  unfold FromIdle emitDeliveryEvent storeAndEmit dateNow ulid
  simp only [hw, ↓reduceIte, Prog.wp_bind, Prog.wp_command]
  refine ⟨rfl, fun at' g hg => ?_⟩
  obtain ⟨-, rfl⟩ := hg
  refine ⟨rfl, fun ev g hg => ?_⟩
  obtain ⟨-, rfl⟩ := hg
  obtain ⟨event, hev, hst, hevid⟩ := hbuild at' ev
  simp only [hev, redis, Prog.wp_bind, Prog.wp_command]
  refine ⟨rfl, fun now g hg => ?_⟩
  obtain ⟨-, rfl⟩ := hg
  have hterminal : (WebhookStoredRecord.mk event 0).terminalOf = some message.id := by
    simp [WebhookStoredRecord.terminalOf, hst, hterm, hevid]
  refine ⟨rfl, fun r g hg => ?_⟩
  obtain ⟨-, rfl⟩ := hg
  cases r with
  | ok v => simpa [EndPhase.next, hterminal] using hpurge
  | error e => simp [EndPhase.next, hterminal]

/-- An event that ends no message leaves nothing owed. -/
theorem emit_nonterminal {pm : PartialMessage}
    (h : pm.id = none ∨ ∀ d, pm.deliveryStatus = some d → ¬ d.IsTerminal) :
    FromIdle (emitDeliveryEvent svc pm) := by
  unfold emitDeliveryEvent
  split
  next =>
    unfold storeAndEmit
    refine fromIdle_bind (fromIdle_command rfl) fun at' => ?_
    refine fromIdle_bind (fromIdle_command rfl) fun ev => ?_
    cases hb : buildWebhookEvent pm at' ev with
    | error e => exact fromIdle_pure ()
    | ok event =>
      refine fromIdle_bind (fromIdle_command rfl) fun now => ?_
      have hnone : (WebhookStoredRecord.mk event 0).terminalOf = none := by
        unfold buildWebhookEvent at hb
        split at hb <;> try cases hb
        next p d dev _ hd _ =>
          rcases h with h | h
          · simp [WebhookStoredRecord.terminalOf, h]
          · simp [WebhookStoredRecord.terminalOf, h d hd]
      unfold FromIdle redis
      rw [Prog.wp_bind, Prog.wp_command]
      refine ⟨rfl, fun r g hg => ?_⟩
      obtain ⟨-, rfl⟩ := hg
      cases r <;> simp [EndPhase.next, hnone]
  next => exact fromIdle_pure ()

theorem readPicked_idle (raw : Option (MessageId × MessageHash)) : FromIdle (readPicked raw) := by
  unfold readPicked
  split
  next => exact fromIdle_pure _
  next =>
    split
    next => exact fromIdle_pure _
    next => exact fromIdle_throw _

theorem entryWait_idle (name : StageName) (c : StageEntryContext) :
    FromIdle ((stages name).entryWaitMs c) := by
  cases name with
  | retry => exact fromIdle_bind (fromIdle_command rfl) fun _ => fromIdle_pure _
  | _ => exact fromIdle_pure _

theorem advance_idle (id : MessageId) (plugin : DeliveryPlugin) (fromStage : StageName)
    (x : Option String) (n : ParsedInt) : FromIdle (advance svc id plugin fromStage x n) := by
  unfold advance
  split
  next => exact fromIdle_throw _
  next =>
    refine fromIdle_bind (fromIdle_command rfl) fun _ => ?_
    refine fromIdle_bind (entryWait_idle _ _) fun _ => ?_
    exact fromIdle_redis rfl

theorem enterRetry_idle (id : MessageId) (q : QueueKey) (n : ParsedInt)
    (hist : List FailureReason) (plugin : DeliveryPlugin) :
    FromIdle (enterRetry svc id q n hist plugin) := by
  unfold enterRetry
  refine fromIdle_bind (fromIdle_redis rfl) fun inQueue => ?_
  cases inQueue with
  | none => exact fromIdle_pure _
  | some _ =>
    refine fromIdle_bind (fromIdle_command rfl) fun _ => ?_
    refine fromIdle_bind (entryWait_idle _ _) fun _ => ?_
    refine fromIdle_bind (fromIdle_redis rfl) fun _ => ?_
    exact fromIdle_bind (fromIdle_redis rfl) fun _ => fromIdle_pure _

theorem requeue_idle (id : MessageId) (p q : QueueKey) (n : ParsedInt) :
    FromIdle (requeue id p q n) := by
  unfold requeue
  refine fromIdle_bind (fromIdle_redis rfl) fun moved => ?_
  cases moved with
  | true => exact fromIdle_bind (fromIdle_redis rfl) fun _ => fromIdle_pure _
  | false => exact fromIdle_pure _

/-- What follows a load runs on a message that names its plugin. -/
theorem getMessageById_idle {α : Type} {id : MessageId} {f : Option DeviceMessage → Engine α}
    (hnone : FromIdle (f none)) (hsome : ∀ m, LoadedAs id m → FromIdle (f (some m))) :
    FromIdle (getMessageById id >>= f) := by
  unfold FromIdle
  rw [Prog.wp_bind]
  refine Prog.wp_mono (getMessageById_watch calm_idle) (fun m g h => ?_) fun _ _ h => h
  obtain ⟨rfl, hm⟩ := h
  cases m with
  | none => exact hnone
  | some m => exact hsome m (hm m rfl)

variable (hw : svc.webhook = true)
include hw

theorem retryOrFail_idle (id : MessageId) (q : QueueKey) (context : FailureContext)
    (plugin : DeliveryPlugin) : FromIdle (retryOrFail svc id q context plugin) := by
  unfold retryOrFail
  refine getMessageById_idle (fromIdle_pure _) fun m hm => ?_
  obtain ⟨p, hp, hne⟩ := hm.2
  refine fromIdle_bind (fromIdle_command rfl) fun timestamp => ?_
  dsimp only
  split
  next =>
    rw [← Prog.bind_assoc]
    refine fromIdle_bind (emit_then_purge hw rfl hp hne rfl (.inr rfl) rfl) fun _ => ?_
    exact fromIdle_pure _
  next =>
    exact fromIdle_bind (enterRetry_idle _ _ _ _ _) fun _ => fromIdle_pure _

theorem processFailure_idle (id : MessageId) (e : ParsedIncomingEvent) (plugin : DeliveryPlugin) :
    FromIdle (processFailure svc id e plugin) := by
  unfold processFailure
  refine getMessageById_idle (fromIdle_pure _) fun m _ => ?_
  dsimp only
  split
  next => exact fromIdle_throw _
  next =>
    split
    next => exact fromIdle_pure _
    next => exact retryOrFail_idle hw _ _ _ _

theorem processSuccess_idle (id : MessageId) (e : ParsedIncomingEvent) (plugin : DeliveryPlugin)
    (he : e.deliveryStatus = .DELIVERY_SUCCESSFUL) : FromIdle (processSuccess svc id e plugin) := by
  unfold processSuccess
  refine getMessageById_idle (fromIdle_pure _) fun m hm => ?_
  obtain ⟨p, hp, hne⟩ := hm.2
  refine fromIdle_bind (fromIdle_command rfl) fun timestamp => ?_
  rw [← Prog.bind_assoc]
  refine fromIdle_bind ?_ fun _ => fromIdle_pure _
  exact emit_then_purge hw rfl hp hne rfl (he ▸ .inl rfl) rfl

theorem processEvent_idle (e : ParsedIncomingEvent) (plugin : DeliveryPlugin) :
    FromIdle (processEvent svc e plugin) := by
  unfold processEvent
  split
  next => exact fromIdle_bind (emit_nonterminal (.inl rfl)) fun _ => fromIdle_pure _
  next =>
    split
    next => exact fromIdle_pure _
    next =>
      refine fromIdle_bind (fromIdle_bind (fromIdle_redis rfl) fun _ => fromIdle_pure _) fun id => ?_
      cases id with
      | none => exact fromIdle_pure _
      | some id =>
        dsimp only
        unfold processIndexed
        split
        next => exact fromIdle_bind (advance_idle _ _ _ _ _) fun _ => fromIdle_pure _
        next =>
          split
          next => exact processFailure_idle hw _ _ _
          next =>
            split
            next => exact fromIdle_pure _
            next h => exact processSuccess_idle hw _ _ _ (not_not.mp h)

theorem stageActions_idle (name : StageName) (c : StageActionContext)
    (hc : LoadedAs c.message.id c.message) : FromIdle (stageActions svc name c) := by
  cases name with
  | ns =>
    refine fromIdle_bind (fromIdle_command rfl) fun held => ?_
    cases held with
    | true => exact fromIdle_pure _
    | false => exact retryOrFail_idle hw _ _ _ _
  | relayNode =>
    change FromIdle (relayNodeAction svc c)
    unfold relayNodeAction
    split
    next =>
      have hremote : FromIdle (remoteStillQueued c) := by
        refine fromIdle_bind (fromIdle_command rfl) fun answer => ?_
        cases answer <;> exact fromIdle_pure _
      refine fromIdle_bind hremote fun queued => ?_
      cases queued with
      | true => exact fromIdle_pure _
      | false => exact retryOrFail_idle hw _ _ _ _
    next => exact retryOrFail_idle hw _ _ _ _
  | device => exact retryOrFail_idle hw _ _ _ _
  | awaitingTask =>
    change FromIdle (awaitingTaskAction svc c)
    unfold awaitingTaskAction
    split
    next =>
      obtain ⟨p, hp, hne⟩ := hc.2
      refine fromIdle_bind (fromIdle_bind (fromIdle_command rfl) fun timestamp => ?_) fun _ =>
        fromIdle_pure _
      exact emit_then_purge hw rfl hp hne rfl (.inr rfl) rfl
    next =>
      split
      next => exact fromIdle_pure _
      next =>
        split
        next => exact fromIdle_pure _
        next =>
          refine fromIdle_bind (fromIdle_command rfl) fun answer => ?_
          refine fromIdle_bind (by cases answer <;> first | exact fromIdle_pure _ |
            exact fromIdle_throw _) fun event => ?_
          cases event with
          | none => exact fromIdle_pure _
          | some event => exact processEvent_idle hw _ _
  | retry => exact fromIdle_bind (requeue_idle _ _ _ _) fun _ => fromIdle_pure _

omit hw in
theorem reschedule_calm (stage : StageName) (m : DeviceMessage) (age : Int)
    (plugin : DeliveryPlugin) : FromCalm (reschedule svc stage m age plugin) := by
  have hallow : ∀ {g : EndPhase} {c : Cmd}, g.Calm → c.isHarmless = true → g.allows c := by
    intro g c hg hc
    cases g with
    | idle => cases c with
      | redis c => cases c <;> first | rfl | cases hc
      | _ => rfl
    | emitted i => exact absurd rfl (hg i)
    | refused i => exact .inl hc
  have hwait : FromCalm (rescheduleWaitMsFor stage ⟨m, age, plugin.tuning, svc.delivery⟩) := by
    intro g hg
    cases stage with
    | retry => exact ⟨hallow hg rfl, fun r g' hr => hr.2 ▸ hg⟩
    | _ => exact hg
  intro g hg
  unfold reschedule
  rw [Prog.wp_bind]
  refine Prog.wp_mono (hwait g hg) (fun wait g hg => ?_) fun _ _ hg => hg
  refine ⟨hallow hg rfl, fun now g' hr => ?_⟩
  rw [hr.2]
  refine ⟨hallow hg rfl, fun r g'' hr => ?_⟩
  rw [hr.2]
  cases r <;> exact hg

theorem drainMember_calm (queue : StageQueue) (now : Nat) (id : MessageId) :
    FromCalm (drainMember svc queue now id) := by
  intro g hg
  unfold drainMember
  rw [Prog.wp_bind]
  refine Prog.wp_mono (getMessageById_watch hg) (fun message g h => ?_) fun _ _ h => h
  obtain ⟨rfl, hm⟩ := h
  have hscrub : FromIdle (do
      let _ ← redis (.removeMessageFromQueue queue.key id)
      return ()) :=
    fromIdle_bind (fromIdle_redis rfl) fun _ => fromIdle_pure _
  cases message with
  | none => exact fromCalm_of_fromIdle hscrub
  | some m =>
    have hm := hm m rfl
    dsimp only
    split
    next => exact fromCalm_of_fromIdle hscrub
    next plugin hplugin =>
      rw [Prog.wp_bind]
      have htime : FromIdle (decodeTime svc id) := by
        unfold decodeTime
        split
        next => exact fromIdle_pure _
        next => exact fromIdle_throw _
      refine Prog.wp_mono htime (fun time g hg => ?_) fun _ _ h => h
      subst hg
      rw [Prog.wp_bind]
      have hact := stageActions_idle hw queue.stage ⟨queue.key, m, plugin, (now : Int) - time⟩
        (by rw [hm.1]; exact hm)
      unfold act
      rw [Prog.wp_tryCatch]
      refine Prog.wp_mono hact (fun outcome g hg => ?_) fun _ g hg => ?_
      · subst hg
        cases outcome with
        | orphaned => exact fromCalm_of_fromIdle hscrub
        | rescheduled => exact reschedule_calm _ _ _ _ _ calm_idle
        | _ => exact calm_idle
      · exact reschedule_calm _ _ _ _ g hg

theorem drainMembers_calm (queue : StageQueue) (now : Nat) (ids : List MessageId) :
    FromCalm (drainMembers svc queue now ids) := by
  induction ids with
  | nil => exact fun g hg => hg
  | cons id ids ih =>
    intro g hg
    unfold drainMembers
    rw [Prog.wp_bind]
    exact Prog.wp_mono (drainMember_calm hw queue now id g hg) (fun _ g hg => ih g hg) fun _ _ h => h

/-- A program that ends with nothing owed, started anew. -/
def EndsCalm {α : Type} (p : Engine α) : Prop :=
  p.wp endWatch (fun _ g => g.Calm) (fun _ g => g.Calm) .idle

omit hw in
theorem swallow_calm {p : Engine Unit} (hp : EndsCalm p) {f : Unit → Engine Unit}
    (hf : ∀ g : EndPhase, g.Calm → (f ()).wp endWatch (fun _ g => g.Calm) (fun _ g => g.Calm) g) :
    EndsCalm ((tryCatch p fun _ => pure ()) >>= f) := by
  unfold EndsCalm
  rw [Prog.wp_bind, Prog.wp_tryCatch]
  exact Prog.wp_mono hp (fun _ g hg => hf g hg) fun _ g hg => hf g hg

omit hw in
theorem local_calm {c : Cmd} {g : EndPhase} (hg : g.Calm) (hc : c.isHarmless = true)
    (hn : ∀ r, g.next c r = g) (hp : c.purges = none) :
    (Prog.command c : Engine (Reply c)).wp endWatch (fun _ g => g.Calm) (fun _ g => g.Calm) g := by
  refine ⟨?_, fun r g' hr => ?_⟩
  · cases g with
    | idle => exact hp
    | emitted i => exact absurd rfl (hg i)
    | refused i => exact .inl hc
  · rw [hr.2, hn]
    exact hg

theorem drainRow_calm (queue : StageQueue) (now : Nat) : EndsCalm (drainRow svc queue now) := by
  refine ⟨rfl, fun began g hr => ?_⟩
  rw [hr.2]
  cases began with
  | false => exact calm_idle
  | true =>
    refine swallow_calm ?_ fun g hg => local_calm hg rfl (fun _ => rfl) rfl
    unfold EndsCalm drain
    rw [Prog.wp_bind]
    refine Prog.wp_mono (fromIdle_redis rfl) (fun ids g hg => ?_) fun _ _ h => h
    subst hg
    exact drainMembers_calm hw queue now ids _ calm_idle

theorem afterSendOne_idle (plugin : DeliveryPlugin) (m : DeviceMessage)
    (answer : Except VendorError String) : FromIdle (afterSendOne svc plugin m answer) := by
  unfold afterSendOne
  split
  next => exact fromIdle_bind (retryOrFail_idle hw _ _ _ _) fun _ => fromIdle_pure _
  next =>
    split
    next => exact fromIdle_bind (retryOrFail_idle hw _ _ _ _) fun _ => fromIdle_pure _
    next => exact fromIdle_bind (advance_idle _ _ _ _ _) fun _ => fromIdle_pure _

theorem trackedSend_calm (plugin : DeliveryPlugin) (m : DeviceMessage) (token : Nat) :
    EndsCalm (trackedSend svc plugin m token) := by
  refine swallow_calm ?_ fun g hg => local_calm hg rfl (fun _ => rfl) rfl
  refine fromCalm_of_fromIdle (fromIdle_bind (fromIdle_command rfl) fun _ => ?_)
  exact fromIdle_bind (fromIdle_command rfl) (afterSendOne_idle hw plugin m)

theorem settleSend_endsCalm (plugin : DeliveryPlugin) (m : DeviceMessage) (token : Nat)
    (answer : Except VendorError String) : EndsCalm (settleSend svc plugin m token answer) := by
  refine swallow_calm ?_ fun g hg => local_calm hg rfl (fun _ => rfl) rfl
  exact fromCalm_of_fromIdle (afterSendOne_idle hw plugin m answer)

omit hw in
/-- The picked message carries the status the pick gave it. -/
theorem pickIntoNs_watch (q : QueueKey) (plugin : DeliveryPlugin)
    (limit : Option ConcurrencyRateLimit) :
    (pickIntoNs svc q plugin limit).wp endWatch
      (fun message g => g = .idle ∧ ∀ m, message = some m → m.deliveryStatus = some .SENT_TO_NS)
      (fun _ g => g.Calm) .idle := by
  unfold pickIntoNs
  rw [Prog.wp_bind]
  refine Prog.wp_mono (fromIdle_command rfl) (fun now g hg => ?_) fun _ _ h => h
  subst hg
  refine ⟨rfl, fun r g hr => ?_⟩
  obtain ⟨hfit, rfl⟩ := hr
  cases r with
  | error e => exact calm_idle
  | ok raw =>
    cases raw with
    | none => exact ⟨rfl, fun _ h => nomatch h⟩
    | some e =>
      obtain ⟨id, h⟩ := e
      change (readPicked (some (id, h))).wp _ _ _ _
      simp only [readPicked]
      cases hm : deserializeMessage id h with
      | error e => exact calm_idle
      | ok m =>
        refine ⟨rfl, fun m' hm' => ?_⟩
        cases Option.some.inj hm'
        rw [(deserializeMessage_fields hm).2.2.2.1]
        exact hfit

omit hw in
theorem canAdmit_idle (plugin : DeliveryPlugin) (q : QueueKey) : FromIdle (canAdmit plugin q) := by
  have hdead : ∀ ids, FromIdle (deadMembers ids) := by
    intro ids
    induction ids with
    | nil => exact fromIdle_pure _
    | cons id ids ih =>
      refine fromIdle_bind ?_ fun live => fromIdle_bind ih fun _ => fromIdle_pure _
      unfold FromIdle
      rw [Prog.wp_tryCatch]
      refine ⟨rfl, fun r g hr => ?_⟩
      rw [hr.2]
      cases r <;> rfl
  unfold canAdmit
  split
  next => exact fromIdle_redis rfl
  next =>
    split
    next => exact fromIdle_pure _
    next =>
      refine fromIdle_bind (fromIdle_redis rfl) fun tracked => ?_
      split
      next =>
        refine fromIdle_bind ?_ fun _ => fromIdle_pure _
        refine fromIdle_bind (fromIdle_redis rfl) fun members => ?_
        refine fromIdle_bind (hdead members) fun dead => ?_
        split
        next => exact fromIdle_pure _
        next => exact fromIdle_bind (fromIdle_redis rfl) fun _ => fromIdle_pure _
      next => exact fromIdle_pure _

omit hw in
theorem distributeQueue_idle (q : QueueKey) : FromIdle (distributeQueue svc q) := by
  unfold distributeQueue
  split
  next => exact fromIdle_pure _
  next plugin _ =>
    refine fromIdle_bind (canAdmit_idle plugin q) fun admitted => ?_
    cases admitted with
    | false => exact fromIdle_pure _
    | true =>
      unfold FromIdle
      simp only [↓reduceIte]
      rw [Prog.wp_bind]
      refine Prog.wp_mono (pickIntoNs_watch q plugin _) (fun message g h => ?_) fun _ _ h => h
      obtain ⟨rfl, hm⟩ := h
      cases message with
      | none => exact fromIdle_pure _
      | some m =>
        refine fromIdle_bind ?_ fun _ => fromIdle_command rfl
        unfold emitFirstSend
        split
        next =>
          refine emit_nonterminal (.inr fun d hd => ?_)
          rw [DeviceMessage.toPartial, hm m rfl] at hd
          cases Option.some.inj hd
          decide
        next => exact fromIdle_pure _

omit hw in
theorem spawnAll_idle (tasks : List Task) : FromIdle (spawnAll tasks) := by
  induction tasks with
  | nil => exact fromIdle_pure _
  | cons t tasks ih => exact fromIdle_bind (fromIdle_command rfl) fun _ => ih

omit hw in
theorem loadIndexed_idle (keys : List (Option MessageId)) : FromIdle (loadIndexed keys) := by
  induction keys with
  | nil => exact fromIdle_pure _
  | cons key keys ih =>
    cases key with
    | none => exact ih
    | some id =>
      refine fromIdle_bind ?_ fun raw => fromIdle_bind ?_ fun _ =>
        fromIdle_bind ih fun _ => fromIdle_pure _
      · unfold FromIdle
        rw [Prog.wp_tryCatch]
        refine ⟨rfl, fun r g hr => ?_⟩
        rw [hr.2]
        cases r <;> rfl
      · unfold readIndexed
        split
        next => exact fromIdle_pure _
        next => exact readPicked_idle _

omit hw in
theorem enqueue_idle (create : CreateDeviceMessage) : FromIdle (enqueue svc create) := by
  unfold enqueue
  split
  next => exact fromIdle_throw _
  next => exact fromIdle_throw _
  next => exact fromIdle_throw _
  next =>
    split
    next => exact fromIdle_throw _
    next =>
      split
      next => exact fromIdle_throw _
      next => exact fromIdle_redis rfl

/-- A cancel, the one handler that deletes a message without reporting its end. -/
def Handler.isCancel (h : Handler) : Bool :=
  match h with
  | .task (.cancelMessage _) => true
  | _ => false

theorem handlerProgram_calm (h : Handler) (hc : h.isCancel = false) :
    EndsCalm (handlerProgram svc h) := by
  cases h with
  | enqueue create =>
    exact fromCalm_of_fromIdle (fromIdle_bind (enqueue_idle create) fun _ => fromIdle_pure _)
  | distribute =>
    exact fromCalm_of_fromIdle (fromIdle_bind (fromIdle_redis rfl) fun _ => spawnAll_idle _)
  | tick =>
    exact fromCalm_of_fromIdle (fromIdle_bind (fromIdle_command rfl) fun _ => spawnAll_idle _)
  | ingress pluginId event =>
    refine fromCalm_of_fromIdle ?_
    change FromIdle (ingress svc pluginId event)
    unfold ingress
    split
    next => exact fromIdle_pure _
    next =>
      split
      next => exact fromIdle_bind (processEvent_idle hw _ _) fun _ => fromIdle_pure _
      next => exact fromIdle_pure _
  | cancel c =>
    refine fromCalm_of_fromIdle (fromIdle_bind ?_ fun _ => spawnAll_idle _)
    exact fromIdle_bind (fromIdle_redis rfl) fun _ => loadIndexed_idle _
  | task t =>
    cases t with
    | drain queue now => exact drainRow_calm hw queue now
    | distributeQueue q => exact fromCalm_of_fromIdle (distributeQueue_idle q)
    | send pluginId m token =>
      change EndsCalm (send svc pluginId m token)
      unfold send
      split
      next => exact calm_idle
      next => exact trackedSend_calm hw _ _ _
    | cancelMessage m => cases hc

end DeviceMessaging
