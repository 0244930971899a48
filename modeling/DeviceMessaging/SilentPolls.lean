import DeviceMessaging.CalinPolls
import DeviceMessaging.CalmDrain
import DeviceMessaging.Tally

namespace DeviceMessaging

open Effect

/-- What is left open of the clients: what they make of an answer, and the reading of a JWT. -/
structure Clients where
  readV1 : ReadResult
  readV2 : ReadResult
  readJwtExpMs : List Char → Option ℚ

/-- No call to a vendor gets an answer, and the clock does not go back. -/
def Outage (clients : Clients) (now : Nat) (c : Cmd) (r : Reply c) : Prop :=
  match c, r with
  | .dateNow, t => now ≤ t
  | .fetchStatus pluginId message, answer =>
    ∃ network, Unreachable network ∧
      (pluginId = "calin-api-v1" →
        answer = CalinApiV1.fetchStatus clients.readV1 message network) ∧
      (pluginId = "calin-api-v2" → ∃ t s,
        answer = CalinApiV2.fetchStatus clients.readJwtExpMs network clients.readV2 t s message)
  | _, _ => True

def outageExec (clients : Clients) (now : Nat) (w : World) (c : Cmd) (r : Reply c) (w' : World) :
    Prop :=
  calmExec everyPoll w c r w' ∧ Outage clients now c r

/-- The message is the one its task leads to, as the stage keeps it, and the vendor has an answer
for its command. -/
structure TaskKnown (message : DeviceMessage) (w : World) : Prop where
  status : message.deliveryStatus = some .DELIVERED_TO_NS
  indexed : w.store.redis.externals message.deliveryQueueId = some message.id
  id_ne : message.id ≠ ""
  asked : (taskTypeOf message.commandType).isSome

/-- The message waits for its task, not yet 48 hours old, and is due. -/
structure Polled (svc : Service) (plugin : DeliveryPlugin) (message : DeviceMessage) (w : World)
    (now : Nat) : Prop where
  stored : ∃ hash, w.store.redis.messages message.id = some hash ∧
    deserializeMessage message.id hash = .ok message
  owned : owner svc message = some plugin
  pull : plugin.deliveryPattern = .PULL
  vendor : plugin.id = "calin-api-v1" ∨ plugin.id = "calin-api-v2"
  due : ∃ k : ℚ, (w.store.redis.queues (.awaitingTask plugin.id)).score message.id = some k ∧
    k ≤ now
  age : ∃ t, svc.decodeTime message.id = some t ∧ (now : Int) - t < pullMaxMessageAgeMs
  task : message.deliveryQueueId ≠ ""
  known : plugin.id = "calin-api-v2" → TaskKnown message w

/-- The message is where it was, with the same hash, and only due later; nothing is sent. -/
structure StillPolled (q : QueueKey) (id : MessageId) (w w' : World) : Prop where
  later : ∃ k k' : ℚ, (w.store.redis.queues q).score id = some k ∧
    (w'.store.redis.queues q).score id = some k' ∧ k < k'
  messages : w'.store.redis.messages = w.store.redis.messages
  elsewhere : ∀ q', q' ≠ q → w'.store.redis.queues q' = w.store.redis.queues q'
  tasks : w'.tasks = w.tasks
  sends : w'.inFlightSends = w.inFlightSends

variable {clients : Clients} {svc : Service} {plugin : DeliveryPlugin} {message : DeviceMessage}
  {w : World} {now : Nat}

/-- The queue a plugin's tasks wait in. -/
abbrev pollQueueOf (plugin : DeliveryPlugin) : StageQueue :=
  ⟨.awaitingTask, .awaitingTask plugin.id⟩

section Rules

variable {α : Type} {E : String → World → Prop}

theorem outage_of_calm {p : Engine α} {Q : α → World → Prop} (h : p.wp (calm everyPoll) Q E w) :
    p.wp (Monitor.ofExec (outageExec clients now)) Q E w :=
  Prog.wp_narrow (fun _ _ _ _ hr => hr.1) h

theorem outage_dateNow {Q : Nat → World → Prop} (hQ : ∀ t, now ≤ t → Q t w) :
    dateNow.wp (Monitor.ofExec (outageExec clients now)) Q E w := by
  refine ⟨trivial, ?_⟩
  rintro t w' ⟨⟨-, o, -, hr⟩, ht⟩
  cases hr
  exact hQ o.now ht

theorem outage_fetchStatus {p : PluginId} {m : DeviceMessage}
    {Q : Except VendorError (Option ParsedIncomingEvent) → World → Prop}
    (hQ : ∀ answer, Outage clients now (.fetchStatus p m) answer → Q answer w) :
    (Prog.command (Cmd.fetchStatus p m) : Engine (Except VendorError _)).wp
      (Monitor.ofExec (outageExec clients now)) Q E w := by
  refine ⟨trivial, ?_⟩
  rintro answer w' ⟨⟨-, o, -, hr⟩, ha⟩
  cases hr
  exact hQ o.polled ha

end Rules

theorem score_rescore {s : SortedSet ℚ MessageId} {id : MessageId} {k k' : ℚ}
    (h : s.score id = some k) : (s.rescore id k').score id = some k' := by
  unfold SortedSet.rescore
  rw [if_pos (mem_of_score h), SortedSet.score_eq_some]
  exact SortedSet.mem_insert_entries.mpr (.inl rfl)

theorem zaddXx_queues (w : World) (q : QueueKey) (k : ℚ) (id : MessageId) :
    (w.after (.zaddXx q (some k) id) "").store.redis.queues =
      Function.update w.store.redis.queues q ((w.store.redis.queues q).rescore id k) :=
  rfl

/-- A member that is due comes back later. -/
theorem reschedule_later {messageAgeMs : Int} {k : ℚ}
    (hk : (w.store.redis.queues (.awaitingTask plugin.id)).score message.id = some k)
    (hdue : k ≤ now) :
    (reschedule svc .awaitingTask message messageAgeMs plugin).wp
      (Monitor.ofExec (outageExec clients now))
      (fun _ w' => StillPolled (.awaitingTask plugin.id) message.id w w') NoThrow w := by
  unfold reschedule
  rw [Prog.wp_bind]
  change Prog.wp _ (dateNow >>= _) _ _ w
  rw [Prog.wp_bind]
  refine outage_dateNow fun t ht => outage_of_calm ?_
  rw [wp_redis_plain rfl]
  have hwait : (0 : ℚ) < defaultPollLadderMs messageAgeMs := by
    rw [Nat.cast_pos]
    unfold defaultPollLadderMs
    split_ifs <;> decide
  have hlt : k < t + defaultPollLadderMs messageAgeMs := by
    have hcast : (now : ℚ) ≤ t := Nat.cast_le.mpr ht
    exact lt_add_of_le_of_pos (hdue.trans hcast) hwait
  change StillPolled _ _ w (w.after (.zaddXx (.awaitingTask plugin.id)
    (some (t + defaultPollLadderMs messageAgeMs)) message.id) "")
  refine ⟨⟨k, t + defaultPollLadderMs messageAgeMs, hk, ?_, hlt⟩, rfl, ?_, rfl, rfl⟩
  · rw [zaddXx_queues, Function.update_self]
    exact score_rescore hk
  · intro q' hq
    rw [zaddXx_queues, Function.update_of_ne hq]

/-- What the action makes of the vendor's answer. -/
def answered (svc : Service) (plugin : DeliveryPlugin)
    (answer : Except VendorError (Option ParsedIncomingEvent)) : Engine StageOutcome := do
  let parsedEvent ← awaitVendor answer
  match parsedEvent with
  | none => return .rescheduled
  | some parsedEvent => processEvent svc parsedEvent plugin

theorem act_polled {c : StageActionContext} (hage : c.messageAgeMs < pullMaxMessageAgeMs)
    (hpull : c.plugin.deliveryPattern = .PULL) (htask : c.message.deliveryQueueId ≠ "") :
    act svc .awaitingTask c = tryCatch
      (Prog.command (Cmd.fetchStatus c.plugin.id c.message) >>= answered svc c.plugin)
      fun _ => pure .rescheduled := by
  have hpoll : awaitingTaskAction svc c =
      (Prog.command (Cmd.fetchStatus c.plugin.id c.message) >>= answered svc c.plugin) := by
    unfold awaitingTaskAction
    rw [if_neg (not_le.mpr hage), if_neg (not_not.mpr hpull), if_neg htask]
    rfl
  unfold act
  exact congrArg (fun p => tryCatch p fun _ => pure StageOutcome.rescheduled) hpoll

/-- A due tick of a message that is polled depends on the answer only. -/
theorem drainMember_polled (h : Polled svc plugin message w now) {Q : Unit → World → Prop}
    {E : String → World → Prop}
    (hanswer : ∀ answer messageAgeMs, Outage clients now (.fetchStatus plugin.id message) answer →
      (answered svc plugin answer).wp (Monitor.ofExec (outageExec clients now))
        (fun outcome w' => (followUp svc (pollQueueOf plugin) message.id message messageAgeMs plugin
          outcome).wp (Monitor.ofExec (outageExec clients now)) Q E w')
        (fun _ w' => (reschedule svc .awaitingTask message messageAgeMs plugin).wp
          (Monitor.ofExec (outageExec clients now)) Q E w') w) :
    (drainMember svc (pollQueueOf plugin) now message.id).wp
      (Monitor.ofExec (outageExec clients now)) Q E w := by
  obtain ⟨hash, hh, hm⟩ := h.stored
  obtain ⟨t, ht, hage⟩ := h.age
  unfold drainMember
  rw [Prog.wp_bind]
  refine outage_of_calm (getMessageById_calm hh hm ?_)
  dsimp only
  rw [h.owned]
  unfold decodeTime
  rw [ht]
  dsimp only
  rw [Prog.wp_bind, Prog.wp_pure, Prog.wp_bind, act_polled hage h.pull h.task, Prog.wp_tryCatch,
    Prog.wp_bind]
  exact outage_fetchStatus fun answer ha => hanswer answer _ ha

/-- A poll that says nothing is made again, later. -/
theorem drainMember_silent (h : Polled svc plugin message w now)
    (hv : plugin.id = "calin-api-v1") :
    (drainMember svc (pollQueueOf plugin) now message.id).wp
      (Monitor.ofExec (outageExec clients now))
      (fun _ w' => StillPolled (.awaitingTask plugin.id) message.id w w') NoThrow w := by
  refine drainMember_polled h fun answer messageAgeMs ha => ?_
  obtain ⟨network, hnetwork, hv1, -⟩ := ha
  have hnone := (hv1 hv).trans (CalinApiV1.fetchStatus_unreachable _ message hnetwork)
  obtain ⟨k, hk, hdue⟩ := h.due
  rw [hnone]
  exact reschedule_later hk hdue

section Resent

/-- The program ends, by a return or a throw, with the message out of the queue. -/
abbrev Leaves {α : Type} (p : Engine α) (q : QueueKey) (id : MessageId) (w : World) : Prop :=
  p.wp (calm everyPoll) (fun _ w' => id ∉ w'.store.redis.queues q)
    (fun _ w' => id ∉ w'.store.redis.queues q) w

theorem enterRetry_leaves {id : MessageId} {n : ParsedInt} {history : List FailureReason} {k : ℚ}
    (hk : (w.store.redis.queues (.awaitingTask plugin.id)).score id = some k) :
    Leaves (enterRetry svc id (.awaitingTask plugin.id) n history plugin)
      (.awaitingTask plugin.id) id w := by
  unfold enterRetry
  rw [Leaves, Prog.wp_bind, wp_zscore, hk]
  simp only [Prog.wp_bind, wp_dateNow]
  intro t
  change (calculateBackoffDelay n svc.delivery).wp _ _ _ w
  unfold calculateBackoffDelay
  simp only [Prog.wp_bind, wp_mathRandom]
  intro random _
  rw [Prog.wp_pure, wp_hmget, wp_redis_plain rfl]
  generalize hargs : EnterRetryMulti.mk id (.awaitingTask plugin.id) _ _ _ _ _ = args
  have hgone : id ∉ (w.after (.enterRetry args) "").store.redis.queues
      (.awaitingTask plugin.id) := by
    intro hmem
    rcases mem_enterRetry hmem with ⟨-, hfrom⟩ | ⟨-, hretry⟩
    · subst hargs
      exact hfrom rfl rfl
    · cases hretry
  cases (w.store.exec (.enterRetry args) "").1 <;> exact hgone

theorem purge_leaves (hid : message.pluginId = some plugin.id) (w : World) :
    Leaves (purge message plugin) (.awaitingTask plugin.id) message.id w := by
  unfold purge
  rw [Leaves, wp_redis_plain rfl]
  intro hmem
  refine (mem_cleanup.mp hmem).2 rfl (List.mem_append_left _ ?_)
  rw [hid]
  simp [enumerateStageKeys, enumerateStageQueues, allStages, stages]

theorem retryOrFail_leaves {hash : MessageHash} {context : FailureContext} {k : ℚ}
    (hh : w.store.redis.messages message.id = some hash)
    (hm : deserializeMessage message.id hash = .ok message)
    (hid : message.pluginId = some plugin.id)
    (hk : (w.store.redis.queues (.awaitingTask plugin.id)).score message.id = some k) :
    Leaves (retryOrFail svc message.id (.awaitingTask plugin.id) context plugin)
      (.awaitingTask plugin.id) message.id w := by
  unfold retryOrFail
  rw [Leaves, Prog.wp_bind]
  refine getMessageById_calm hh hm ?_
  simp only [Prog.wp_bind, wp_dateNow]
  intro timestamp
  split
  next =>
    rw [Prog.wp_bind]
    refine Prog.wp_mono (emit_calm [] _) (fun _ w₁ _ => ?_) fun _ _ h => h.elim
    rw [Prog.wp_bind]
    exact purge_leaves hid w₁
  next =>
    rw [Prog.wp_bind]
    exact enterRetry_leaves hk

/-- A failed status check is taken for a failure of the task. -/
theorem processEvent_leaves (h : Polled svc plugin message w now) (hknown : TaskKnown message w)
    (err : VendorError) :
    Leaves (processEvent svc (statusCheckFailed message err) plugin) (.awaitingTask plugin.id)
      message.id w := by
  obtain ⟨hash, hh, hm⟩ := h.stored
  obtain ⟨k, hk, -⟩ := h.due
  have hid : message.pluginId = some plugin.id := by
    obtain ⟨p, hp, hd⟩ := Option.bind_eq_some_iff.mp h.owned
    rw [hp, PluginRegistry.delivery_id hd]
  have htruthy : truthy (statusCheckFailed message err).deliveryQueueId =
      some message.deliveryQueueId := truthy_some h.task
  have hkey : messageIdFromKey (some message.id) = some message.id :=
    Option.filter_eq_some_iff.mpr ⟨rfl, decide_eq_true hknown.id_ne⟩
  unfold processEvent
  rw [if_neg (show ¬ (statusCheckFailed message err).unsolicited = true from Bool.false_ne_true),
    htruthy]
  unfold getMessageIdFromDeliveryQueueId
  simp only [Prog.wp_bind]
  rw [wp_getExternalIndex, hknown.indexed, Prog.wp_pure, hkey]
  dsimp only
  unfold processIndexed
  have hstatus : (statusCheckFailed message err).deliveryStatus = .DELIVERY_FAILED := rfl
  rw [hstatus, if_neg (fun hs => by cases hs.1), if_pos rfl]
  unfold processFailure
  rw [Prog.wp_bind]
  refine getMessageById_calm hh hm ?_
  dsimp only
  rw [hknown.status, h.pull]
  exact retryOrFail_leaves hh hm hid hk

theorem reschedule_gone {id : MessageId} {q : QueueKey} {messageAgeMs : Int}
    (hgone : id ∉ w.store.redis.queues q) :
    Leaves (reschedule svc .awaitingTask message messageAgeMs plugin) q id w := by
  unfold reschedule
  rw [Leaves, Prog.wp_bind]
  change Prog.wp _ (dateNow >>= _) _ _ w
  rw [Prog.wp_bind, wp_dateNow]
  intro t
  rw [wp_redis_plain rfl]
  intro hmem
  have hqueue : id ∈ Function.update w.store.redis.queues (.awaitingTask plugin.id)
      ((w.store.redis.queues (.awaitingTask plugin.id)).rescore message.id
        (t + defaultPollLadderMs messageAgeMs)) q := hmem
  by_cases hq : q = .awaitingTask plugin.id
  · rw [hq, Function.update_self, SortedSet.mem_rescore] at hqueue
    rw [hq] at hgone
    exact hgone hqueue
  · rw [Function.update_of_ne hq] at hqueue
    exact hgone hqueue

theorem followUp_gone {id : MessageId} {q : QueueKey} {messageAgeMs : Int}
    (outcome : StageOutcome) (hgone : id ∉ w.store.redis.queues q) :
    Leaves (followUp svc (pollQueueOf plugin) message.id message messageAgeMs plugin outcome) q id
      w := by
  cases outcome with
  | orphaned =>
    unfold followUp
    rw [Leaves, Prog.wp_bind, wp_redis_plain rfl]
    exact fun hmem => hgone (mem_zrem.mp hmem).1
  | rescheduled => exact reschedule_gone hgone
  | movedOn => exact hgone
  | removed => exact hgone

/-- A status check that failed takes the message out of its stage. -/
theorem drainMember_resent (h : Polled svc plugin message w now)
    (hv : plugin.id = "calin-api-v2") :
    (drainMember svc (pollQueueOf plugin) now message.id).wp
      (Monitor.ofExec (outageExec clients now))
      (fun _ w' => message.id ∉ w'.store.redis.queues (.awaitingTask plugin.id))
      (fun _ w' => message.id ∉ w'.store.redis.queues (.awaitingTask plugin.id)) w := by
  refine drainMember_polled h fun answer messageAgeMs ha => ?_
  obtain ⟨network, hnetwork, -, hv2⟩ := ha
  obtain ⟨t, s, hanswer⟩ := hv2 hv
  obtain ⟨err, herr⟩ : ∃ err, answer = .ok (some (statusCheckFailed message err)) := by
    rw [hanswer]
    exact CalinApiV2.fetchStatus_unreachable _ message hnetwork t s (h.known hv).asked
  rw [herr]
  refine Prog.wp_mono (outage_of_calm (processEvent_leaves h (h.known hv) err)) (fun outcome w' hgone => ?_)
    fun _ w' hgone => ?_
  · exact outage_of_calm (followUp_gone outcome hgone)
  · exact outage_of_calm (reschedule_gone hgone)

end Resent

/-- In an outage the due tick of a message leaves it polled if and only if its vendor is the
first CALIN API. -/
theorem outage_stillPolled_iff (h : Polled svc plugin message w now) {r : Except String Unit}
    {w' : World}
    (hr : (drainMember svc (pollQueueOf plugin) now message.id).Runs (outageExec clients now) w r w') :
    StillPolled (.awaitingTask plugin.id) message.id w w' ↔ plugin.id = "calin-api-v1" := by
  constructor
  · intro hstill
    rcases h.vendor with hv | hv
    · exact hv
    · obtain ⟨k, k', -, hk', -⟩ := hstill.later
      have hends := Prog.wp_runs (drainMember_resent h hv) hr
      have hgone : message.id ∉ w'.store.redis.queues (.awaitingTask plugin.id) := by
        cases r <;> exact hends
      rw [SortedSet.score_eq_none.mpr hgone] at hk'
      cases hk'
  · intro hv
    have hends := Prog.wp_runs (drainMember_silent h hv) hr
    cases r with
    | ok _ => exact hends
    | error _ => exact hends.elim

section Example

/-- No call is answered: the connection is refused. -/
def refused : Network :=
  fun _ => .rejected (.object (some "TypeError") none
    (.object (some "Error") (some (.text "ECONNREFUSED")) .value))

theorem refused_unreachable : Unreachable refused :=
  fun _ => ⟨_, rfl⟩

def silentClients : Clients where
  readV1 _ _ := .ok none
  readV2 _ _ := .ok none
  readJwtExpMs _ := none

/-- The answers of the vendors' clients while connections are refused. -/
def refusedPoll (pluginId : PluginId) (message : DeviceMessage) :
    Except VendorError (Option ParsedIncomingEvent) :=
  if pluginId = "calin-api-v1" then CalinApiV1.fetchStatus silentClients.readV1 message refused
  else CalinApiV2.fetchStatus silentClients.readJwtExpMs refused silentClients.readV2 0 ⟨none, 0⟩
    message

def refusedRespond (now : Nat) (o : Oracle) (c : Cmd) (w : World) : Option (Reply c × World) :=
  match c with
  | .fetchStatus pluginId message => some (refusedPoll pluginId message, w)
  | .dateNow => some (now + o.now, w)
  | c => respond { o with fault := none } c w

theorem refusedRespond_exec (now : Nat) (o : Oracle) (c : Cmd) (w : World) (r : Reply c)
    (w' : World) (h : refusedRespond now o c w = some (r, w')) :
    outageExec silentClients now w c r w' := by
  cases c with
  | fetchStatus pluginId message =>
    cases h
    refine ⟨⟨?_, { polled := refusedPoll pluginId message }, rfl, rfl⟩, refused,
      refused_unreachable, ?_, ?_⟩
    · unfold PollRule.Meets
      split <;> trivial
    · intro hv
      exact if_pos hv
    · intro hv
      refine ⟨0, ⟨none, 0⟩, if_neg ?_⟩
      rw [hv]
      decide
  | dateNow =>
    cases h
    exact ⟨⟨trivial, { now := now + o.now }, rfl, rfl⟩, Nat.le_add_right now o.now⟩
  | _ => exact ⟨⟨trivial, { o with fault := none }, rfl, h⟩, trivial⟩

def waitingId : MessageId :=
  "01ARZ3NDEKTSV4RRFFQ69G5FAV"

def waitingMessage (pluginId : PluginId) : DeviceMessage where
  id := waitingId
  commandType := some .readCredit
  pluginId := some pluginId
  priority := some 1
  device := { externalReference := "m-1" }
  networkId := none
  correlationId := none
  requestData := none
  phase := none
  deliveryQueueId := "3800"
  deliveryStatus := some .DELIVERED_TO_NS
  retryCount := some 0
  failureHistory := []
  concurrencyRateLimitKey := none

def waitingHash (pluginId : PluginId) : MessageHash where
  commandType := some .readCredit
  priority := some (.text ⟨false, 1, 0⟩)
  pluginId := some pluginId
  device := some (.text { externalReference := "m-1" })
  deliveryQueueId := some "3800"
  deliveryStatus := some .DELIVERED_TO_NS

/-- Ten seconds after the message was enqueued. -/
def pollTime : Nat :=
  1469922860259

def waitingWorld (pluginId : PluginId) : World :=
  .boot { Store.empty with
    redis := ((Redis.empty.hset waitingId fun _ => waitingHash pluginId).zadd
      (.awaitingTask pluginId) pollTime waitingId).setExternal "3800" waitingId }

theorem waitingWorld_queue (pluginId : PluginId) :
    (waitingWorld pluginId).store.redis.queues (.awaitingTask pluginId) =
      SortedSet.empty.insert waitingId (pollTime : ℚ) := by
  unfold waitingWorld
  exact Function.update_self ..

theorem waiting_polled (plugin : DeliveryPlugin)
    (hp : vendorService.registry.delivery plugin.id = some plugin)
    (hpull : plugin.deliveryPattern = .PULL)
    (hv : plugin.id = "calin-api-v1" ∨ plugin.id = "calin-api-v2") :
    Polled vendorService plugin (waitingMessage plugin.id) (waitingWorld plugin.id) pollTime where
  stored := ⟨waitingHash plugin.id, rfl, rfl⟩
  owned := hp
  pull := hpull
  vendor := hv
  due := by
    refine ⟨pollTime, ?_, le_refl _⟩
    rw [waitingWorld_queue, SortedSet.score_eq_some]
    exact SortedSet.mem_insert_entries.mpr (.inl rfl)
  age := by
    have htime : vendorService.decodeTime waitingId = some 1469922850259 := by decide
    exact ⟨1469922850259, htime, by decide⟩
  task := (by decide : "3800" ≠ "")
  known _ := {
    status := rfl
    indexed := rfl
    id_ne := (by decide : waitingId ≠ "")
    asked := rfl }

theorem waitingV1_polled : Polled vendorService (calinApiV1 {}) (waitingMessage "calin-api-v1")
    (waitingWorld "calin-api-v1") pollTime :=
  waiting_polled (calinApiV1 {}) rfl rfl (.inl rfl)

theorem waitingV2_polled : Polled vendorService (calinApiV2 {}) (waitingMessage "calin-api-v2")
    (waitingWorld "calin-api-v2") pollTime :=
  waiting_polled (calinApiV2 {}) rfl rfl (.inr rfl)

/-- A run of a due tick while connections are refused. -/
theorem exists_refused_run (plugin : DeliveryPlugin) (w : World) (os : List Oracle)
    (p : World → Bool)
    (h : ((drainMember vendorService (pollQueueOf plugin) pollTime waitingId).play
      (refusedRespond pollTime) os w).any (fun x => p x.2) = true) :
    ∃ r w', (drainMember vendorService (pollQueueOf plugin) pollTime waitingId).Runs
      (outageExec silentClients pollTime) w r w' ∧ p w' = true := by
  obtain ⟨⟨r, w'⟩, hplay, hp⟩ := (Option.any_eq_true _ _).mp h
  exact ⟨r, w', Prog.runs_of_play (refusedRespond_exec pollTime) hplay, hp⟩

theorem waitingV1_stillPolled : ∃ r w',
    (drainMember vendorService (pollQueueOf (calinApiV1 {})) pollTime waitingId).Runs
      (outageExec silentClients pollTime) (waitingWorld "calin-api-v1") r w' ∧
    StillPolled (.awaitingTask "calin-api-v1") waitingId (waitingWorld "calin-api-v1") w' := by
  obtain ⟨r, w', hr, -⟩ := exists_refused_run (calinApiV1 {})
    (waitingWorld "calin-api-v1") (List.replicate 4 {}) (fun _ => true) (by decide +kernel)
  exact ⟨r, w', hr, (outage_stillPolled_iff waitingV1_polled hr).mpr rfl⟩

/-- With the second API the command goes into retry, to be sent once more. -/
theorem waitingV2_resent :
    Polled vendorService (calinApiV2 {}) (waitingMessage "calin-api-v2")
      (waitingWorld "calin-api-v2") pollTime ∧
    ∃ r w', (drainMember vendorService (pollQueueOf (calinApiV2 {})) pollTime waitingId).Runs
        (outageExec silentClients pollTime) (waitingWorld "calin-api-v2") r w' ∧
      waitingId ∈ w'.store.redis.queues .retry ∧
      ¬ StillPolled (.awaitingTask "calin-api-v2") waitingId (waitingWorld "calin-api-v2") w' := by
  obtain ⟨r, w', hr, hp⟩ := exists_refused_run (calinApiV2 {})
    (waitingWorld "calin-api-v2") (List.replicate 11 {})
    (fun w' => waitingId ∈ w'.store.redis.queues .retry ∧
      (w'.store.redis.queues (.awaitingTask "calin-api-v2")).score waitingId = none)
    (by decide +kernel)
  obtain ⟨hretry, hgone⟩ := of_decide_eq_true hp
  refine ⟨waitingV2_polled, r, w', hr, hretry, ?_⟩
  rintro ⟨⟨k, k', -, hk', -⟩, -⟩
  rw [hgone] at hk'
  cases hk'

end Example

end DeviceMessaging
