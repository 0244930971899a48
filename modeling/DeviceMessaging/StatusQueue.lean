import DeviceMessaging.LateCallbacks

namespace DeviceMessaging

open Effect

variable {svc : Service} {fresh : Freshness} {s : Serial} {w : World} {m : MessageId}

/-- Every event a poll returns leads somewhere. -/
def routablePolls (svc : Service) : PollRule :=
  fun w pluginId event =>
    ∀ plugin, svc.registry.delivery pluginId = some plugin → Routable svc plugin event w

/-- The queue the stored status of a message names. -/
def homeQueue (plugin : DeliveryPlugin) (message : DeviceMessage) (status : DeliveryStatus) :
    Option QueueKey :=
  if status = .QUEUED then some (plugin.initialQueueKey message.networkId message.device)
  else (stageForStatus status plugin.deliveryPattern).map fun stage => stageKeyFor stage plugin.id

/-- The message loads, and waits in the one queue its status names. -/
def AtHome (svc : Service) (w : World) (m : MessageId) : Prop :=
  ∃ message plugin status q, w.loaded m = some message ∧ owner svc message = some plugin ∧
    message.deliveryStatus = some status ∧ homeQueue plugin message status = some q ∧
    ∀ p, m ∈ w.store.redis.queues p ↔ p = q

/-- While every polled event leads somewhere, the status of each stored message
names the one queue it waits in. -/
theorem serially_status_names_queue (hs : Serially svc neverReused (routablePolls svc) s)
    (m : MessageId) (h : MessageHash) (hh : s.world.store.redis.messages m = some h) :
    AtHome svc s.world m := by
  have hpolls : PollsLead svc (fun _ => True) (routablePolls svc) :=
    fun _ w p plugin event hp he => he plugin hp
  obtain ⟨a, hst, hpl⟩ := (hs.sound hpolls).standing hh
  obtain ⟨message, hm, hl⟩ := hst.load m
  obtain ⟨q, hq⟩ := Option.ne_none_iff_exists'.mp hst.station
  refine ⟨message, a.plugin, a.status, q, ?_, hst.owner hl.toSnapshot, hl.status, ?_, fun p => ?_⟩
  · simp [World.loaded, hh, hm, Except.toOption]
  · unfold homeQueue
    rw [hl.readyQueue]
    exact hq
  · constructor
    · intro hp
      exact Option.some.inj ((hpl.queues p hp).symm.trans hq)
    · rintro rfl
      exact hpl.home trivial p hq

/-- A command for a meter behind a data concentrator, accepted as task `1001`. -/
def pullCreate : CreateDeviceMessage where
  commandType := .readCredit
  priority := { significand := 1, exponent := 1 }
  pluginId := "calin-api-v1"
  device := { externalReference := "1001", relayNode := some { id := some 7 } }
  enqueueable := readCredit_enqueueable
  pluginId_ne := calinApiV1_named
  correlationId_ne := no_correlationId

def pullQueue : QueueKey :=
  buildInitialQueueKey "calin-api-v1" "dcu" "7"

def pullMessage : DeviceMessage where
  id := sampleId
  commandType := some .readCredit
  pluginId := some "calin-api-v1"
  priority := some 10
  device := pullCreate.device
  networkId := none
  correlationId := none
  requestData := none
  phase := none
  deliveryQueueId := ""
  deliveryStatus := some .SENT_TO_NS
  retryCount := some 0
  failureHistory := []
  concurrencyRateLimitKey := some ⟨"calin-api-v1", "dcu", "7"⟩

def pullSent : List Move :=
  [.request (.enqueue pullCreate) [{ id := sampleId }],
    .request (.distribute pullQueue) granted,
    .accept "calin-api-v1" pullMessage 0 "1001",
    .request (.answer "calin-api-v1" pullMessage 0 (.ok "1001")) granted]

def taskQueue : StageQueue :=
  ⟨.awaitingTask, .awaitingTask "calin-api-v1"⟩

/-- Its poll comes due; what the vendor answers is the script's. -/
def pollAnswered (event : Option ParsedIncomingEvent) : Move :=
  .request (.due taskQueue 10000 sampleId) (.replicate 40 { polled := .ok event })

def pollEvent (x : String) : ParsedIncomingEvent :=
  { deliveryQueueId := some x, deliveryStatus := .DELIVERY_SUCCESSFUL, device := pullCreate.device }

/-- The event is about a known id, and fails nothing. -/
def knownId (w : World) (_ : PluginId) (event : ParsedIncomingEvent) : Bool :=
  (truthy event.deliveryQueueId).any (fun x => (w.store.redis.externals x).isSome) &&
    decide (event.deliveryStatus ≠ .DELIVERY_FAILED)

theorem routable_of_knownId {event : ParsedIncomingEvent} {p : PluginId}
    (h : knownId w p event = true) : routablePolls svc w p event := by
  intro plugin _
  simp only [knownId, Bool.and_eq_true, decide_eq_true_eq] at h
  obtain ⟨x, hx, hm⟩ := (Option.any_eq_true _ _).mp h.1
  obtain ⟨m, hm⟩ := Option.isSome_iff_exists.mp hm
  exact .inr (.inr ⟨x, m, hx, hm, fun he => absurd he h.2⟩)

/-- A poll that finds the task on its way keeps the message where it waits. -/
theorem poll_in_progress_at_home : ∃ s,
    Serially vendorService neverReused (routablePolls vendorService) s ∧
      AtHome vendorService s.world sampleId := by
  obtain ⟨s, hs, hp⟩ := exists_serially vendorService neverReusedB knownId
    (pullSent ++ [pollAnswered (some { pollEvent "1001" with deliveryStatus := .SENT_TO_DEVICE })])
    (fun s => (s.world.store.redis.messages sampleId).isSome)
    neverReused_of_check (fun _ _ _ => routable_of_knownId) (by decide +kernel)
  obtain ⟨h, hh⟩ := Option.isSome_iff_exists.mp hp
  exact ⟨s, hs, serially_status_names_queue hs sampleId h hh⟩

/-- A poll that answers about a task nobody knows takes the message out of its
queue, live as it is. -/
theorem poll_about_unknown_task_strands : ∃ s message,
    Serially vendorService neverReused anyPoll s ∧ s.world.loaded sampleId = some message ∧
    message.deliveryStatus = some .DELIVERED_TO_NS ∧
    (∀ q, sampleId ∉ s.world.store.redis.queues q) ∧ ¬ AtHome vendorService s.world sampleId := by
  obtain ⟨s, hs, hp⟩ := exists_serial_run vendorService
    (pullSent ++ [pollAnswered (some (pollEvent "2002"))])
    (fun s => (s.world.loaded sampleId).any (fun message =>
        message.deliveryStatus = some .DELIVERED_TO_NS ∧ message.pluginId = some "calin-api-v1") &&
      decide (sampleId ∉ s.world.store.redis.queues (.awaitingTask "calin-api-v1")))
    (by decide +kernel)
  simp only [Bool.and_eq_true, decide_eq_true_eq] at hp
  obtain ⟨hm, hq⟩ := hp
  obtain ⟨message, hm, hc⟩ := (Option.any_eq_true _ _).mp hm
  obtain ⟨hstatus, hplugin⟩ := of_decide_eq_true hc
  have hnone : ∀ q, sampleId ∉ s.world.store.redis.queues q := by
    intro q hmem
    rcases hs.sound (not_settled vendorService anyPoll) sampleId with hn | ⟨a, h, hh, hst, hp⟩
    · exact hn.queues q hmem
    obtain ⟨message', hm', hl⟩ := hst.load sampleId
    have hmm : message' = message := by
      have hl' : s.world.loaded sampleId = some message' := by
        simp [World.loaded, hh, hm', Except.toOption]
      exact Option.some.inj (hl'.symm.trans hm)
    subst hmm
    have hap : a.plugin = calinApiV1 {} := by
      have ho := hst.owned
      rw [Option.some.inj (hl.pluginId.symm.trans hplugin)] at ho
      exact (Option.some.inj ho).symm
    have hst' : a.status = .DELIVERED_TO_NS := Option.some.inj (hl.status.symm.trans hstatus)
    have hstation : a.station = some (.awaitingTask "calin-api-v1") := by
      simp [Attempt.station, stationKey, hst', hap, stageForStatus, stageKeyFor, stages, calinApiV1]
    exact hq (Option.some.inj ((hp.queues q hmem).symm.trans hstation) ▸ hmem)
  refine ⟨s, message, hs, hm, hstatus, hnone, ?_⟩
  rintro ⟨_, _, _, q, -, -, -, -, hq'⟩
  exact hnone q ((hq' q).mpr rfl)

end DeviceMessaging
