import DeviceMessaging.EndedEvents

namespace DeviceMessaging

open Effect

variable {svc : Service} {settled : DeliveryPattern → Prop} {ledger : List Issued}
  {fresh : Freshness} {polls : PollRule} {s : Serial} {w w' : World} {m : MessageId} {a : Attempt}

/-- The message as its hash loads. -/
def World.loaded (w : World) (m : MessageId) : Option DeviceMessage :=
  (w.store.redis.messages m).bind fun h => (deserializeMessage m h).toOption

theorem StandsAt.loaded (hs : StandsAt svc settled ledger w m a) :
    ∃ message, w.loaded m = some message ∧ message.deliveryStatus = some a.status ∧
      message.retryCount = some a.count := by
  obtain ⟨h, hh, hst, -⟩ := hs
  obtain ⟨message, hm, hl⟩ := hst.load m
  exact ⟨message, by simp [World.loaded, hh, hm, Except.toOption], hl.status, hl.count⟩

theorem not_settled (svc : Service) (polls : PollRule) : PollsLead svc (fun _ => False) polls :=
  fun h => h.elim

/-- A message without a hash has left no reference to it anywhere. -/
theorem noReference_of_unstored (hS : Sound svc settled ledger w)
    (hm : w.store.redis.messages m = none) : w.store.redis.NoReference m := by
  rcases hS m with hn | ⟨a, h, hh, -⟩
  · exact hn.toNoReference
  · cases hm.symm.trans hh

/-- A message that was purged has left no reference to it anywhere. -/
theorem noReference_of_purged (hS : Sound svc settled ledger w) (hm : m ∈ w.store.purged) :
    w.store.redis.NoReference m := by
  rcases hS m with hn | ⟨a, h, -, -, hp⟩
  · exact hn.toNoReference
  · exact absurd hm hp.unpurged

/-- What a handler ends with when it ends a message: it says so, or it acts on a failure that is
final, and does not put it off. -/
def Ended (final : Prop) (out : StageOutcome) : Prop :=
  out = .removed ∨ final ∧ out ≠ .rescheduled

/-- The answer to a send after which its message is not tried again. -/
def FinalAnswer (svc : Service) (plugin : DeliveryPlugin) (message : DeviceMessage)
    (sent : Except VendorError String) : Prop :=
  match sent with
  | .error err => isFinalFailure svc (plugin.parseError err) message.retryCount = true
  | .ok x => x = ""

/-- The member of a stage as the runner has loaded it. -/
structure Taken (svc : Service) (w : World) (queue : StageQueue) (plugin : DeliveryPlugin)
    (message : DeviceMessage) : Prop where
  row : queue ∈ enumerateStageQueues (pullPluginIds svc)
  waits : message.id ∈ w.store.redis.queues queue.key
  loaded : w.loaded message.id = some message
  owned : owner svc message = some plugin

/-- How a message exits, and the world its handler leaves: an event, pushed or polled, tells that
it succeeded or failed for good; the deadline of its stage ends its last attempt; it is older
than a PULL task may get; the answer to its send is final; it is cancelled. -/
inductive Exits (svc : Service) (polls : PollRule) (s : Serial) (w' : World) : MessageId → Prop
  | event {plugin : DeliveryPlugin} {event : ParsedIncomingEvent} {x : String} {m : MessageId}
    {out : StageOutcome} (hu : event.unsolicited = false)
    (hx : truthy event.deliveryQueueId = some x) (hm : s.world.store.redis.externals x = some m)
    (hr : (processEvent svc event plugin).Runs (calmExec polls) s.world (.ok out) w')
    (hend : out = .removed ∨ event.deliveryStatus = .DELIVERY_SUCCESSFUL ∨
      event.deliveryStatus = .DELIVERY_FAILED ∧ ∀ message, s.world.loaded m = some message →
        isFinalFailure svc (eventFailure event) message.retryCount = true) :
    Exits svc polls s w' m
  | deadline {queue : StageQueue} {plugin : DeliveryPlugin} {message : DeviceMessage} {age : Int}
    {out : StageOutcome} (ht : Taken svc s.world queue plugin message)
    (hstage : queue.stage.IsDeadline)
    (hr : (stageActions svc queue.stage ⟨queue.key, message, plugin, age⟩).Runs (calmExec polls)
      s.world (.ok out) w')
    (hend : Ended (isFinalFailure svc (timedOut queue.stage plugin) message.retryCount = true)
      out) : Exits svc polls s w' message.id
  | aged {queue : StageQueue} {plugin : DeliveryPlugin} {message : DeviceMessage} {age : Int}
    {r : Except String StageOutcome} (ht : Taken svc s.world queue plugin message)
    (hstage : queue.stage = .awaitingTask) (hage : pullMaxMessageAgeMs ≤ age)
    (hr : (stageActions svc queue.stage ⟨queue.key, message, plugin, age⟩).Runs (calmExec polls)
      s.world r w') : Exits svc polls s w' message.id
  | answer {pluginId : PluginId} {plugin : DeliveryPlugin} {message : DeviceMessage} {token : Nat}
    {sent : Except VendorError String} {w : World} {p : Engine Unit} {r : Except String Unit}
    (hp : svc.registry.delivery pluginId = some plugin)
    (hfinal : FinalAnswer svc plugin message sent)
    (hh : s.handler svc (.answer pluginId message token sent) = some (w, p))
    (hr : p.Runs (calmExec polls) w r w') : Exits svc polls s w' message.id
  | cancelled {correlationId key : String} {m : MessageId}
    (hkey : key ∈ correlationIndexKeys correlationId)
    (hm : s.world.store.redis.correlations key = some m)
    (hr : (cancelOne svc correlationId).Runs (calmExec polls) s.world (.ok .CANCELLED) w') :
    Exits svc polls s w' m
  | claimed {correlationId : String} {messages : List DeviceMessage} {outcomes : List Bool}
    {message : DeviceMessage} {w : World}
    (hload : (getAllMessagesForCorrelationId correlationId).Runs (calmExec polls) s.world
      (.ok messages) w)
    (hr : (cancelMessages svc messages).Runs (calmExec polls) w (.ok outcomes) w')
    (hm : (message, true) ∈ messages.zip outcomes) : Exits svc polls s w' message.id

section Exits

theorem Failed.gone {q : QueueKey} {context : FailureContext} {out : StageOutcome}
    (hf : Failed svc settled ledger w m a q context out w')
    (hend : Ended (isFinalFailure svc context (some a.count) = true) out) : Gone w' m := by
  cases hf with
  | removed _ hg => exact hg
  | retried hnot =>
    rcases hend with he | ⟨hfinal, -⟩
    · cases he
    · cases hnot.symm.trans hfinal
  | absent hnot =>
    rcases hend with he | ⟨hfinal, -⟩
    · cases he
    · cases hnot.symm.trans hfinal

theorem event_gone {plugin : DeliveryPlugin} {event : ParsedIncomingEvent} {x : String}
    {out : StageOutcome} (hu : event.unsolicited = false)
    (hx : truthy event.deliveryQueueId = some x) (hm : w.store.redis.externals x = some m)
    (hend : out = .removed ∨ event.deliveryStatus = .DELIVERY_SUCCESSFUL ∨
      event.deliveryStatus = .DELIVERY_FAILED ∧ ∀ message, w.loaded m = some message →
        isFinalFailure svc (eventFailure event) message.retryCount = true)
    (hp : Processed svc settled ledger w plugin event out w') : Gone w' m := by
  cases hp with
  | unsolicited hu' => cases hu.symm.trans hu'
  | unnamed _ hx' => cases hx.symm.trans hx'
  | unknown _ hx' hm' =>
    cases hx.symm.trans hx'
    cases hm.symm.trans hm'
  | applied _ hx' hm' hs _ he =>
    cases hx.symm.trans hx'
    cases hm.symm.trans hm'
    cases he with
    | delivered _ hg => exact hg
    | failed hfailed _ hf =>
      refine hf.gone ?_
      rcases hend with hend | hend | ⟨-, hfinal⟩
      · exact .inl hend
      · cases hfailed.symm.trans hend
      · obtain ⟨message, hloaded, -, hcount⟩ := hs.loaded
        refine .inr ⟨hcount ▸ hfinal message hloaded, fun he => ?_⟩
        cases hf <;> cases he
    | transmitted hsent =>
      rcases hend with hend | hend | ⟨hend, -⟩
      · cases hend
      · cases hsent.symm.trans hend
      · cases hsent.symm.trans hend
    | elsewhere hsent =>
      rcases hend with hend | hend | ⟨hend, -⟩
      · cases hend
      · cases hsent.symm.trans hend
      · cases hsent.symm.trans hend
    | nothing hsuccess hfailed =>
      rcases hend with hend | hend | ⟨hend, -⟩
      · cases hend
      · exact absurd hend hsuccess
      · exact absurd hend hfailed

/-- A member that the runner has taken stands in the stage. -/
theorem Taken.stands {queue : StageQueue} {plugin : DeliveryPlugin} {message : DeviceMessage}
    (hS : Sound svc settled ledger w) (ht : Taken svc w queue plugin message) :
    ∃ h a, w.store.redis.messages message.id = some h ∧ Standing svc h a ∧
      Places settled ledger w message.id h a ∧ Loaded message.id h a message ∧
      plugin = a.plugin ∧ queue.key = stageKeyFor queue.stage a.plugin.id ∧
      StageFits queue.stage a := by
  obtain ⟨h, hh, hm⟩ := Option.bind_eq_some_iff.mp ht.loaded
  obtain ⟨a, hst, hp⟩ := hS.standing hh
  obtain ⟨message', hm', hl⟩ := hst.load message.id
  rw [hm'] at hm
  cases hm
  obtain ⟨p, hkey⟩ := mem_enumerateStageQueues ht.row
  have hstation := hp.queues _ ht.waits
  rw [hkey] at hstation
  obtain ⟨hfit, hkey'⟩ := stage_of_station hstation
  have howner : plugin = a.plugin :=
    Option.some.inj (ht.owned.symm.trans (hst.owner hl.toSnapshot))
  exact ⟨h, a, hh, hst, hp, hl, howner, hkey.trans hkey', hfit⟩

theorem afterSendOne_final {answer : Except VendorError String} {message : DeviceMessage}
    (hs : StandsAt svc settled ledger w m a) (hidle : w.outstanding m = []) (hid : message.id = m)
    (hcount : message.retryCount = some a.count)
    (hfinal : FinalAnswer svc a.plugin message answer) :
    (afterSendOne svc a.plugin message answer).wp (calm polls) (fun _ w' => Gone w' m) NoThrow
      w := by
  have hfail : ∀ context, isFinalFailure svc context (some a.count) = true →
      (retryOrFail svc m .ns context a.plugin).wp (calm polls) (fun _ w' => Gone w' m) NoThrow
        w := by
    intro context hfinal
    refine Prog.wp_mono (retryOrFail_calm hs hidle fun _ => rfl) (fun out w' hf => ?_)
      fun _ _ h => h
    refine hf.gone (.inr ⟨hfinal, fun he => ?_⟩)
    cases hf <;> cases he
  unfold afterSendOne
  split
  next err =>
    rw [Prog.wp_bind, hid]
    exact hfail _ (hcount ▸ hfinal)
  next x =>
    have hempty : x = "" := hfinal
    rw [if_pos hempty, Prog.wp_bind, hid]
    exact hfail _ rfl

/-- The final answer to an outstanding send, handled to its end. -/
theorem settleSend_final {pluginId : PluginId} {plugin : DeliveryPlugin} {message : DeviceMessage}
    {token : Nat} {answer : Except VendorError String} (hS : Sound svc settled ledger w)
    (ht : .send pluginId message token ∈ w.tasks)
    (hp : svc.registry.delivery pluginId = some plugin)
    (hfinal : FinalAnswer svc plugin message answer) :
    (settleSend svc plugin message token answer).wp (calm polls)
      (fun _ w' => w'.store.redis.NoReference message.id) NoThrow
      (w.answered (.send pluginId message token)) := by
  obtain ⟨a, -, -, hs, hidle, message', token', he', -, hcount⟩ :=
    hS.sending (mem_outstanding.mpr ⟨ht, rfl⟩)
  obtain ⟨rfl, rfl, rfl⟩ : pluginId = a.plugin.id ∧ message = message' ∧ token = token' := by
    simpa using he'
  obtain ⟨h, hh, hstand, hpl⟩ := hs
  have hplugin : plugin = a.plugin := by
    have ho := hstand.owned
    rw [hstand.plugin_id, hp] at ho
    exact Option.some.inj ho
  subst hplugin
  unfold settleSend
  rw [Prog.wp_bind, Prog.wp_tryCatch]
  refine Prog.wp_mono (afterSendOne_final ⟨h, hh, hstand, hpl⟩ hidle rfl hcount hfinal)
    (fun _ w₂ hg => ?_) fun _ _ h => h.elim
  rw [wp_settleSend]
  have hstore : (w₂.settle message.id token).store = w₂.store := by
    unfold World.settle
    split <;> rfl
  rw [hstore]
  exact hg.toNoReference

theorem mem_zip_ended {P : DeviceMessage → Prop} {messages : List DeviceMessage}
    {outcomes : List Bool} {message : DeviceMessage}
    (h : List.Forall₂ (fun message cancelled => cancelled = true → P message) messages outcomes)
    (hm : (message, true) ∈ messages.zip outcomes) : P message :=
  (List.forall₂_iff_zip.mp h).2 hm rfl

end Exits

/-- Where handlers run one at a time: whatever handler ends a message leaves no reference to it;
and there is none to a message whose end a stored event tells, or that has no hash. -/
theorem serially_exits (hs : Serially svc fresh polls s) (m : MessageId) :
    (∀ w', Exits svc polls s w' m → w'.store.redis.NoReference m) ∧
    (svc.webhook = true → s.world.store.redis.HoldsEnd m → s.world.store.redis.NoReference m) ∧
    (s.world.store.redis.messages m = none → s.world.store.redis.NoReference m) := by
  have hS := hs.sound (not_settled svc polls)
  refine ⟨fun w' he => ?_, fun hw hend => ?_, noReference_of_unstored hS⟩
  · cases he with
    | event hu hx hm hr hend =>
      exact (event_gone hu hx hm hend (Prog.wp_runs (processEvent_calm hS _ _) hr)).toNoReference
    | deadline ht hstage hr hend =>
      obtain ⟨h, a, hh, hst, hp, hl, rfl, hkey, hfit⟩ := ht.stands hS
      rw [hkey] at hr
      rcases Prog.wp_runs (deadline_calm hstage hh hst hp rfl hfit) hr with ⟨rfl, -⟩ | hf
      · rcases hend with he | ⟨-, hne⟩
        · cases he
        · exact absurd rfl hne
      · rw [hl.count] at hend
        exact (hf.gone hend).toNoReference
    | aged ht hstage hage hr =>
      obtain ⟨h, a, hh, hst, hp, hl, rfl, hkey, hfit⟩ := ht.stands hS
      rw [hstage] at hr hfit
      have hends := Prog.wp_runs (aged_calm hst hp hl hfit hage) hr
      rename_i r
      cases r with
      | ok out => exact hends.2.1.toNoReference
      | error e => exact hends.elim
    | answer hp hfinal hh hr =>
      simp only [Serial.handler] at hh
      split at hh
      next ht =>
        rw [hp] at hh
        cases hh
        have hends := Prog.wp_runs (settleSend_final hS ht.1 hp hfinal) hr
        rename_i r
        cases r with
        | ok _ => exact hends
        | error e => exact hends.elim
      next => cases hh
    | cancelled hkey hm hr =>
      exact ((Prog.wp_runs (cancelOne_calm hS _) hr).2 rfl _ hkey m hm).toNoReference
    | @claimed correlationId messages _ _ _ hload hr hm =>
      have hloads : (getAllMessagesForCorrelationId correlationId).wp (calm polls)
          (fun messages w => (∀ message ∈ messages,
            Listed svc (fun _ => False) s.ledger s.world message) ∧ w = s.world) NoThrow s.world :=
        getAllMessages_calm hS correlationId fun _ hl => ⟨hl.listed, rfl⟩
      obtain ⟨hl, rfl⟩ := Prog.wp_runs hloads hload
      have hc := Prog.wp_runs (cancelMessages_calm messages hS hl) hr
      exact (mem_zip_ended hc.ended hm).toNoReference
  · have hended := hs.endsPurged hw
    have hpurged := hended.purged m (reported_of_holdsEnd hended.payloads hend)
    exact noReference_of_purged hS (hpurged.resolve_right (calm_idle m))

/-- The sample command, delivered. -/
theorem delivered_exits : ∃ (s : Serial) (w' : World),
    Serially vendorService neverReused anyPoll s ∧ Exits vendorService anyPoll s w' sampleId ∧
      s.world.store.redis.messages sampleId ≠ none ∧ w'.store.redis.NoReference sampleId := by
  let event := sampleEvent .DELIVERY_SUCCESSFUL
  obtain ⟨s, hs, hp⟩ := exists_serial_run vendorService sampleSent
    (fun s => s.world.store.redis.externals "X" = some sampleId ∧
      (s.world.store.redis.messages sampleId).isSome = true ∧
      ((processEvent vendorService event (calinChirpstack {})).play (scripted fun _ _ _ => true)
        granted s.world).any fun e => e.1.toOption = some .removed) (by decide +kernel)
  obtain ⟨hindex, hstored, hplay⟩ := of_decide_eq_true hp
  obtain ⟨r, w', hr, hout⟩ := runs_of_script hplay
  cases r with
  | error e => cases of_decide_eq_true hout
  | ok out =>
    have he : Exits vendorService anyPoll s w' sampleId :=
      .event rfl (x := "X") rfl hindex hr (.inr (.inl rfl))
    exact ⟨s, w', hs, he, Option.isSome_iff_ne_none.mp hstored,
      (serially_exits hs sampleId).1 w' he⟩

end DeviceMessaging
